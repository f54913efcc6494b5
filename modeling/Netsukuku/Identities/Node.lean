import Mathlib
import Netsukuku.Identities.Actor

/-!
# One node: the actor, its queue and its tasks

Commands wait in a queue, tasks run beside the actor, and a call a task makes is answered whenever
the peer answers it.  The queue is a multiset: nothing below depends on the order in which waiting
commands are taken.

* `Node.Step` — one step of a node whose peers may answer anything that `answers` allows.
* `Node.Run` — the nodes reached from `Handle::spawn`.
-/

namespace Netsukuku.Identities

structure Node where
  state : State
  tasks : Multiset Process
  inbox : Multiset Cmd

namespace Node

/-- `Handle::spawn`. -/
def spawn (mainId : IdentityId) (initialNaddr : Option Naddr) : Node :=
  ⟨State.spawn mainId initialNaddr, 0, 0⟩

/-- What comes from outside the node: everything but the results of its own tasks. -/
def External : Cmd → Prop
  | .applyArcAdd _ _ => False
  | .applyMigrationDuplication _ _ _ _ => False
  | _ => True

/-- What a run allows: which commands reach the node, which answers its calls get, and which
commands are executed in which states. -/
structure Rules where
  issued : Cmd → Prop
  answers : CallResult → Prop
  executed : State → Cmd → Prop

variable (R : Rules)

/-- One step of a node. -/
inductive Step : Node → Node → Prop
  | issue (s : State) (ts : Multiset Process) (q : Multiset Cmd) (cmd : Cmd)
      (hext : External cmd) (hissued : R.issued cmd) : Step ⟨s, ts, q⟩ ⟨s, ts, cmd ::ₘ q⟩
  | execute (s : State) (ts : Multiset Process) (q : Multiset Cmd) (cmd : Cmd) (d : Draw)
      (hd : d.Allowed s) (hexec : R.executed s cmd) :
      Step ⟨s, ts, cmd ::ₘ q⟩ ⟨(s.handle d cmd).state, ts + (s.handle d cmd).spawned, q⟩
  | answer (s : State) (ts : Multiset Process) (q : Multiset Cmd) (arc : ArcId)
      (method : MethodCall) (resume : CallResult → Process) (result : CallResult)
      (hanswer : R.answers result) :
      Step ⟨s, .call arc method resume ::ₘ ts, q⟩ ⟨s, resume result ::ₘ ts, q⟩
  | send (s : State) (ts : Multiset Process) (q : Multiset Cmd) (cmd : Cmd) :
      Step ⟨s, .send cmd ::ₘ ts, q⟩ ⟨s, ts, cmd ::ₘ q⟩
  | finish (s : State) (ts : Multiset Process) (q : Multiset Cmd) :
      Step ⟨s, .done ::ₘ ts, q⟩ ⟨s, ts, q⟩

/-- The nodes reached from `Handle::spawn`. -/
inductive Run : Node → Prop
  | spawn (mainId : IdentityId) (initialNaddr : Option Naddr) : Run (Node.spawn mainId initialNaddr)
  | step {n n' : Node} (run : Run n) (hstep : Step R n n') : Run n'

variable {R}

/-- A command issued and executed at once. -/
lemma Run.command {s : State} {ts : Multiset Process} {q : Multiset Cmd} (run : Run R ⟨s, ts, q⟩)
    (cmd : Cmd) (hext : External cmd) (hissued : R.issued cmd) (d : Draw) (hd : d.Allowed s)
    (hexec : R.executed s cmd) :
    Run R ⟨(s.handle d cmd).state, ts + (s.handle d cmd).spawned, q⟩ :=
  (run.step (.issue s ts q cmd hext hissued)).step (.execute s ts q cmd d hd hexec)

/-- The last command of a task, sent and executed at once. -/
lemma Run.result {s : State} {ts : Multiset Process} {q : Multiset Cmd} {cmd : Cmd}
    (run : Run R ⟨s, .send cmd ::ₘ ts, q⟩) (d : Draw) (hd : d.Allowed s)
    (hexec : R.executed s cmd) :
    Run R ⟨(s.handle d cmd).state, ts + (s.handle d cmd).spawned, q⟩ :=
  (run.step (.send s ts q cmd)).step (.execute s ts q cmd d hd hexec)

end Node

end Netsukuku.Identities
