import Mathlib
import Netsukuku.Qspn.Manager
import Netsukuku.Qspn.Reachable

/-!
# The debounce of arc changes

A change of an arc's cost makes the actor gather, with that arc as the changed one, so that the
map update advertises the paths through it again.  At most one such gather goes out per window: a
change while the window is open is noted in it, and served when the window elapses.  The window
has room for one arc.

* `DebounceEvent`, `Debounced` — the actor with the log of its changes and gathers.
* `Served` — every change of an arc in the log is followed by a gather for it.
* `KeepsOwed` — the command does not overwrite an arc the window owes a gather.
* `served_of_atRest` — in a run that never overwrites, every arc is served once the window owes
  nothing; `not_served_overwritten` — three arcs that flap in one window lose the middle one.
-/

namespace Netsukuku

variable {F : Type}

/-! ## The log -/

/-- What matters to the debounce: an arc's cost changed, or a gather went out for an arc. -/
inductive DebounceEvent where
  | changed (arc : ArcId)
  | gathered (arc : ArcId)
  deriving DecidableEq, Repr

/-- Every change of `arc` in the log, hence the last one, is followed by a gather for it. -/
def Served (arc : ArcId) (log : List DebounceEvent) : Prop :=
  ∀ before after, log = before ++ .changed arc :: after → .gathered arc ∈ after

lemma served_nil (arc : ArcId) : Served arc [] := by
  intro before after h
  simp at h

/-- A change that is not among the last events comes before all of them. -/
lemma changed_before {arc : ArcId} {log es before after : List DebounceEvent}
    (hes : .changed arc ∉ es) (heq : log ++ es = before ++ .changed arc :: after) :
    ∃ mid, log = before ++ .changed arc :: mid ∧ after = mid ++ es := by
  rcases List.append_eq_append_iff.mp heq with ⟨mid, -, hmid⟩ | ⟨mid, hlog, hmid⟩
  · exact absurd (hmid ▸ List.mem_append_right _ List.mem_cons_self) hes
  · cases mid with
    | nil =>
        rw [List.nil_append] at hmid
        exact absurd (hmid ▸ List.mem_cons_self) hes
    | cons e mid =>
        obtain ⟨rfl, rfl⟩ := List.cons.inj hmid
        exact ⟨mid, hlog, rfl⟩

/-- Only a new change can leave a served arc unserved. -/
lemma Served.append {arc : ArcId} {log es : List DebounceEvent} (h : Served arc log)
    (hes : .changed arc ∉ es) : Served arc (log ++ es) := by
  intro before after heq
  obtain ⟨mid, hlog, rfl⟩ := changed_before hes heq
  exact List.mem_append_left es (h before mid hlog)

/-- A gather serves its arc, whatever came before. -/
lemma served_gathered (arc : ArcId) (log : List DebounceEvent) :
    Served arc (log ++ [.gathered arc]) := by
  intro before after heq
  obtain ⟨mid, -, rfl⟩ := changed_before (by simp) heq
  exact List.mem_append_right mid List.mem_cons_self

/-! ## The actor and its log -/

/-- The arc a spawned gather passes on as the changed one. -/
def Effect.gathered : Effect → Option DebounceEvent
  | .gather (some arc) _ _ => some (.gathered arc)
  | _ => none

/-- The change a command makes to an arc of a bootstrapped actor. -/
def Actor.changes (a : Actor F) : Command → List DebounceEvent
  | .arcChanged arc _ =>
      if a.state.containsArc arc ∧ a.state.isBootstrapComplete then [.changed arc] else []
  | _ => []

/-- An actor, with everything it has logged. -/
structure Debounced (F : Type) where
  actor : Actor F
  log : List DebounceEvent

/-- The actor handles a command that `ok` allows; what the command changes is logged before what
the handler gathers. -/
inductive Debounced.Step [Float64 F] (ok : Actor F → Command → Prop) :
    Debounced F → Debounced F → Prop where
  | handle {n : Debounced F} (order : MapOrder) {c : Command} {a : Actor F}
      {effects : List Effect} (hok : ok n.actor c)
      (hrun : n.actor.handle order c = .ok (a, effects)) :
      Step ok n ⟨a, n.log ++ n.actor.changes c ++ effects.filterMap Effect.gathered⟩

/-- The window owes no gather. -/
def Actor.AtRest (a : Actor F) : Prop :=
  ∀ pending, a.arcGatherWindow = some pending → pending.trailingOwed = false

/-- The command does not overwrite an arc the window owes a gather: a change that comes while one
is owed is of the arc it is owed for. -/
def KeepsOwed (a : Actor F) (c : Command) : Prop :=
  ∀ owed, a.arcGatherWindow = some ⟨owed, true⟩ → ∀ arc, .changed arc ∈ a.changes c → arc = owed

/-! ## The window as a machine of its own -/

/-- One move of the window, and what it logs. -/
inductive WindowMove : Option PendingArcGather → List DebounceEvent → Option PendingArcGather →
    Prop where
  | idle (w : Option PendingArcGather) {es : List DebounceEvent} (hes : ∀ arc, .changed arc ∉ es) :
      WindowMove w es w
  | opens (arc : ArcId) : WindowMove none [.changed arc, .gathered arc] (some ⟨arc, false⟩)
  | notes (pending : PendingArcGather) (arc : ArcId) :
      WindowMove (some pending) [.changed arc] (some ⟨arc, true⟩)
  | serves (arc : ArcId) : WindowMove (some ⟨arc, true⟩) [.gathered arc] (some ⟨arc, false⟩)
  | closes (arc : ArcId) : WindowMove (some ⟨arc, false⟩) [] none

/-- Every arc is served, but for the one the window owes a gather. -/
def Owes (w : Option PendingArcGather) (log : List DebounceEvent) : Prop :=
  ∀ arc, w ≠ some ⟨arc, true⟩ → Served arc log

/-- **A move that does not overwrite keeps every other arc served.** -/
theorem WindowMove.owes {w w' : Option PendingArcGather} {log es : List DebounceEvent}
    (hmove : WindowMove w es w')
    (hkeep : ∀ owed, w = some ⟨owed, true⟩ → ∀ arc, .changed arc ∈ es → arc = owed)
    (h : Owes w log) : Owes w' (log ++ es) := by
  intro arc hw'
  cases hmove with
  | idle w hes => exact (h arc hw').append (hes arc)
  | opens new =>
      rw [List.append_cons]
      by_cases harc : arc = new
      · subst harc
        exact served_gathered arc _
      · have hlog : Served arc log := h arc (by simp)
        exact (hlog.append (by simp [harc])).append (by simp)
  | notes pending new =>
      have harc : arc ≠ new := fun heq => hw' (by rw [heq])
      refine (h arc fun hw => ?_).append (by simp [harc])
      -- The window owed `arc`, so the change noted now is of `arc` as well.
      exact harc (hkeep arc hw new (by simp)).symm
  | serves owed =>
      by_cases harc : arc = owed
      · subst harc
        exact served_gathered arc log
      · exact (h arc (by simp [Ne.symm harc])).append (by simp)
  | closes last => exact (h arc (by simp)).append (by simp)

/-! ## The actor moves the window -/

/-- No gather is a change. -/
lemma changed_notMem_gathered (arc : ArcId) (effects : List Effect) :
    .changed arc ∉ effects.filterMap Effect.gathered := by
  intro h
  obtain ⟨e, -, he⟩ := List.mem_filterMap.mp h
  unfold Effect.gathered at he
  split at he <;> cases he

lemma windowMove_requestArcGather (a : Actor F) (arc : ArcId) :
    WindowMove a.arcGatherWindow
      ([.changed arc] ++ (requestArcGather a arc).2.filterMap Effect.gathered)
      (requestArcGather a arc).1.arcGatherWindow := by
  unfold requestArcGather
  cases a.arcGatherWindow with
  | none => exact .opens arc
  | some pending => exact .notes pending arc

lemma isBootstrapComplete_setArcCost (s : QspnState F) (arc : ArcId) (cost : Cost) :
    (s.setArcCost arc cost).isBootstrapComplete = s.isBootstrapComplete := by
  unfold QspnState.setArcCost
  split <;> rfl

lemma windowMove_handleArcChanged (a : Actor F) (arc : ArcId) (cost : Cost) :
    WindowMove a.arcGatherWindow
      (a.changes (.arcChanged arc cost) ++
        (handleArcChanged a arc cost).2.filterMap Effect.gathered)
      (handleArcChanged a arc cost).1.arcGatherWindow := by
  by_cases harc : a.state.containsArc arc = true
  · by_cases hboot : a.state.isBootstrapComplete = true
    · simp only [Actor.changes, handleArcChanged, isBootstrapComplete_setArcCost, harc, hboot,
        and_self, if_true]
      exact windowMove_requestArcGather { a with state := a.state.setArcCost arc cost } arc
    · simp only [Actor.changes, handleArcChanged, isBootstrapComplete_setArcCost, harc, hboot,
        if_true]
      exact .idle _ (by simp)
  · simp only [Actor.changes, handleArcChanged, harc]
    exact .idle _ (by simp)

lemma windowMove_handleArcGatherWindowElapsed (a : Actor F) :
    WindowMove a.arcGatherWindow
      ((handleArcGatherWindowElapsed a).2.filterMap Effect.gathered)
      (handleArcGatherWindowElapsed a).1.arcGatherWindow := by
  unfold handleArcGatherWindowElapsed
  rcases hw : a.arcGatherWindow with _ | ⟨arc, _ | _⟩
  · simp only [hw]
    exact .idle none (by simp)
  · exact .closes arc
  · exact .serves arc

lemma windowMove_lift {a a' : Actor F} {effects : List Effect}
    {h : Outcome Empty (QspnState F × List Effect)} (hrun : a.lift h = .ok (a', effects)) :
    WindowMove a.arcGatherWindow (effects.filterMap Effect.gathered) a'.arcGatherWindow := by
  obtain ⟨⟨s, es⟩, -, hs⟩ := Outcome.bind_eq_ok.mp hrun
  cases hs
  exact .idle _ fun arc => changed_notMem_gathered arc effects

/-- **Every command moves the window** as the machine does; only the two of the debounce move it
at all. -/
theorem windowMove_handle [Float64 F] {order : MapOrder} {a a' : Actor F} {c : Command}
    {effects : List Effect} (hrun : a.handle order c = .ok (a', effects)) :
    WindowMove a.arcGatherWindow (a.changes c ++ effects.filterMap Effect.gathered)
      a'.arcGatherWindow := by
  cases c with
  | arcChanged arc cost =>
      have hmove := windowMove_handleArcChanged a arc cost
      rw [show handleArcChanged a arc cost = (a', effects) from Except.ok.inj hrun] at hmove
      exact hmove
  | arcGatherWindowElapsed =>
      have hmove := windowMove_handleArcGatherWindowElapsed a
      rw [show handleArcGatherWindowElapsed a = (a', effects) from Except.ok.inj hrun] at hmove
      exact hmove
  | resendEtp arc etp isFull =>
      cases hrun
      exact .idle _ fun x => changed_notMem_gathered x _
  | _ => exact windowMove_lift hrun

/-! ## Runs -/

lemma Debounced.Step.owes [Float64 F] {n n' : Debounced F} (hstep : Step KeepsOwed n n')
    (h : Owes n.actor.arcGatherWindow n.log) : Owes n'.actor.arcGatherWindow n'.log := by
  cases hstep with
  | handle order hok hrun =>
      rw [List.append_assoc]
      refine (windowMove_handle hrun).owes (fun owed hw arc harc => ?_) h
      rcases List.mem_append.mp harc with harc | harc
      · exact hok owed hw arc harc
      · exact absurd harc (changed_notMem_gathered arc _)

/-- A run in which nothing is overwritten keeps every arc served that is not owed. -/
lemma owes_of_run [Float64 F] {n₀ n : Debounced F}
    (hrun : Relation.ReflTransGen (Debounced.Step KeepsOwed) n₀ n)
    (h₀ : Owes n₀.actor.arcGatherWindow n₀.log) : Owes n.actor.arcGatherWindow n.log := by
  induction hrun with
  | refl => exact h₀
  | tail _ hstep ih => exact hstep.owes ih

/-- **The debounce loses no change, as long as none overwrites another.**  In every run of the
actor, all commands included, in which a change that comes while a gather is owed is of the arc it
is owed for: whenever the window owes nothing, every change handled since the start of the log has
been followed by a gather for its arc. -/
theorem served_of_atRest [Float64 F] (a : Actor F) {n : Debounced F}
    (hrun : Relation.ReflTransGen (Debounced.Step KeepsOwed) ⟨a, []⟩ n) (hrest : n.actor.AtRest)
    (arc : ArcId) : Served arc n.log := by
  have howes : Owes n.actor.arcGatherWindow n.log := owes_of_run hrun fun arc _ => served_nil arc
  refine howes arc fun hw => ?_
  have hfalse := hrest _ hw
  cases hfalse

/-! ## Three arcs in one window -/

/-- The two commands of the debounce. -/
def Command.IsDebounce : Command → Prop
  | .arcChanged _ _ => True
  | .arcGatherWindowElapsed => True
  | _ => False

/-- A node with three arcs and no window open. -/
def threeArcs : Actor ℚ :=
  ⟨(((freshNode 0).addArc ⟨1⟩ .null).addArc ⟨2⟩ .null).addArc ⟨3⟩ .null, none⟩

/-- Two arcs that change in one window are both served when it elapses. -/
theorem served_of_atRest_twoArcs :
    ∃ n : Debounced ℚ, Relation.ReflTransGen (Debounced.Step KeepsOwed) ⟨threeArcs, []⟩ n ∧
      n.log = [.changed ⟨1⟩, .gathered ⟨1⟩, .changed ⟨2⟩, .gathered ⟨2⟩] ∧
      ∀ arc, Served arc n.log := by
  have hrun : ∃ n : Debounced ℚ,
      Relation.ReflTransGen (Debounced.Step KeepsOwed) ⟨threeArcs, []⟩ n ∧
        n.actor.arcGatherWindow = some ⟨⟨2⟩, false⟩ ∧
        n.log = [.changed ⟨1⟩, .gathered ⟨1⟩, .changed ⟨2⟩, .gathered ⟨2⟩] := by
    refine ⟨_, ((Relation.ReflTransGen.refl.tail
      (.handle (c := .arcChanged ⟨1⟩ (.finite 10)) .asInserted ?_ rfl)).tail
      (.handle (c := .arcChanged ⟨2⟩ (.finite 10)) .asInserted ?_ rfl)).tail
      (.handle (c := .arcGatherWindowElapsed) .asInserted ?_ rfl), rfl, rfl⟩
    · intro owed hw arc harc
      cases harc
    · intro owed hw
      cases hw
    · intro owed hw
      cases hw
  obtain ⟨n, hsteps, hw, hlog⟩ := hrun
  refine ⟨n, hsteps, hlog, served_of_atRest threeArcs hsteps fun pending hp => ?_⟩
  rw [hw] at hp
  cases hp
  rfl

/-- **A third change overwrites the second.**  Three arcs change in one window: the first is
gathered for at once and the third when the window elapses; the second never is. -/
theorem not_served_overwritten :
    threeArcs.arcGatherWindow = none ∧
      ∃ n : Debounced ℚ, Relation.ReflTransGen (Debounced.Step fun a c =>
          a.state.isBootstrapComplete = true ∧ c.IsDebounce) ⟨threeArcs, []⟩ n ∧
        n.actor.AtRest ∧
        n.log = [.changed ⟨1⟩, .gathered ⟨1⟩, .changed ⟨2⟩, .changed ⟨3⟩, .gathered ⟨3⟩] ∧
        ¬ Served ⟨2⟩ n.log := by
  refine ⟨rfl, _, (((Relation.ReflTransGen.refl.tail
    (.handle (c := .arcChanged ⟨1⟩ (.finite 10)) .asInserted ⟨rfl, trivial⟩ rfl)).tail
    (.handle (c := .arcChanged ⟨2⟩ (.finite 10)) .asInserted ⟨rfl, trivial⟩ rfl)).tail
    (.handle (c := .arcChanged ⟨3⟩ (.finite 10)) .asInserted ⟨rfl, trivial⟩ rfl)).tail
    (.handle (c := .arcGatherWindowElapsed) .asInserted ⟨rfl, trivial⟩ rfl), ?_, rfl, ?_⟩
  · intro pending hp
    cases hp
    rfl
  · intro hserved
    have hmem := hserved [.changed ⟨1⟩, .gathered ⟨1⟩] [.changed ⟨3⟩, .gathered ⟨3⟩] rfl
    revert hmem
    decide

end Netsukuku
