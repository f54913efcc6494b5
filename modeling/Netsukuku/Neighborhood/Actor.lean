import Mathlib
import Netsukuku.Neighborhood.Edits

/-!
# The manager, its queue and its tasks

Commands wait in a queue and are handled one after the other.  The tasks of the arcs run beside:
each sends its results to the end of the queue, at any time.  A monitor looks at its token before
it reports, not when the report is handled.

* `Actor.Step` — one step of the whole.
* `Actor.Run` — the actors reached from a fresh manager in which only such commands are handled as
  `C` allows.
-/

namespace Netsukuku.Neighborhood

structure Actor where
  manager : Manager
  queue : List Command
  tasks : Multiset ArcTask
  log : List Output

/-- What a monitor makes of a measurement: the value it goes on with, and its report. -/
def monitored (smoothed measured : Option UInt64) : Option UInt64 × MonitorOutcome :=
  match measured with
  | none => (smoothed, .noRtt)
  | some rtt =>
      match smoothed with
      | none => (some rtt, .firstSample rtt)
      | some prev => (some (emaStep prev rtt), .sample (emaStep prev rtt))

/-- What a monitor is about to send after a probe: whether the neighbour is alive, and the time
measured if there is one. -/
def probed (ctx : ArcMonitorContext) (cancel : Token) (smoothed measured : Option UInt64)
    (alive : Bool) : ArcTask :=
  if ¬alive then .reporting ctx .nopFailed none
  else .reporting ctx (monitored smoothed measured).2
    (some (cancel, (monitored smoothed measured).1))

/-- What is left of a task that has reported. -/
def reported (ctx : ArcMonitorContext) : Option (Token × Option UInt64) → Multiset ArcTask
  | none => 0
  | some (cancel, smoothed) => {.monitor ctx cancel smoothed}

/-- The MAC and the insertion a task's result is about. -/
def Command.result : Command → Option (Mac × Token)
  | .monitorResult key _ inserted => some (key, inserted)
  | .requestArcNegotiated mac _ _ inserted => some (mac, inserted)
  | _ => none

namespace Actor

variable (C : Manager → Command → Prop)

/-- One step. -/
inductive Step : Actor → Actor → Prop
  | issue (a : Actor) (cmd : Command) (hext : cmd.result = none) :
      Step a { a with queue := a.queue ++ [cmd] }
  | handle {a : Actor} (i : Input) {cmd : Command} {rest : List Command}
      (hqueue : a.queue = cmd :: rest) (hC : C a.manager cmd) :
      Step a ⟨(a.manager.handle i cmd).1.state, rest, a.tasks + (a.manager.handle i cmd).1.tasks,
        a.log ++ (a.manager.handle i cmd).1.outputs⟩
  | negotiated {a : Actor} {mac : Mac} {canI : Bool} {inserted : Token} {ts : Multiset ArcTask}
      (canYou : Bool) (htasks : a.tasks = .negotiation mac canI inserted ::ₘ ts) :
      Step a { a with
        tasks := ts
        queue := a.queue ++ [.requestArcNegotiated mac canI canYou inserted] }
  | probe {a : Actor} {ctx : ArcMonitorContext} {cancel : Token} {smoothed : Option UInt64}
      {ts : Multiset ArcTask} (measured : Option UInt64) (alive : Bool)
      (htasks : a.tasks = .monitor ctx cancel smoothed ::ₘ ts)
      (hlive : cancel ∉ a.manager.cancelled) :
      Step a { a with tasks := probed ctx cancel smoothed measured alive ::ₘ ts }
  | rejected {a : Actor} {ctx : ArcMonitorContext} {cancel : Token} {ts : Multiset ArcTask}
      (htasks : a.tasks = .confirmation ctx cancel ::ₘ ts)
      (hlive : cancel ∉ a.manager.cancelled) :
      Step a { a with tasks := .reporting ctx .nopFailed none ::ₘ ts }
  | report {a : Actor} {ctx : ArcMonitorContext} {outcome : MonitorOutcome}
      {next : Option (Token × Option UInt64)} {ts : Multiset ArcTask}
      (htasks : a.tasks = .reporting ctx outcome next ::ₘ ts) :
      Step a { a with
        tasks := reported ctx next + ts
        queue := a.queue ++ [.monitorResult ctx.key outcome ctx.inserted] }
  | stop {a : Actor} {task : ArcTask} {ts : Multiset ArcTask} (htasks : a.tasks = task ::ₘ ts)
      (hcancelled : match task with
        | .monitor _ cancel _ => cancel ∈ a.manager.cancelled
        | .confirmation _ cancel => cancel ∈ a.manager.cancelled
        | _ => False) :
      Step a { a with tasks := ts }

/-- The actors reached from a fresh manager. -/
inductive Run (myId : NodeId) (maxArcs : ℕ) (requireAuth : Bool) : Actor → Prop
  | spawn : Run myId maxArcs requireAuth ⟨Manager.spawn myId maxArcs requireAuth, [], 0, []⟩
  | step {a a' : Actor} (run : Run myId maxArcs requireAuth a) (hstep : Step C a a') :
      Run myId maxArcs requireAuth a'

variable {C}

/-- A command issued and handled at once. -/
lemma Run.command {myId : NodeId} {maxArcs : ℕ} {requireAuth : Bool} {s : Manager}
    {ts : Multiset ArcTask} {log : List Output}
    (run : Run C myId maxArcs requireAuth ⟨s, [], ts, log⟩) (i : Input) (cmd : Command)
    (hext : cmd.result = none) (hC : C s cmd) :
    Run C myId maxArcs requireAuth ⟨(s.handle i cmd).1.state, [], ts + (s.handle i cmd).1.tasks,
      log ++ (s.handle i cmd).1.outputs⟩ :=
  (run.step (.issue _ cmd hext)).step (.handle i rfl hC)

/-- The command at the head of the queue, handled. -/
lemma Run.next {myId : NodeId} {maxArcs : ℕ} {requireAuth : Bool} {s : Manager} {cmd : Command}
    {rest : List Command} {ts : Multiset ArcTask} {log : List Output}
    (run : Run C myId maxArcs requireAuth ⟨s, cmd :: rest, ts, log⟩) (i : Input) (hC : C s cmd) :
    Run C myId maxArcs requireAuth ⟨(s.handle i cmd).1.state, rest,
      ts + (s.handle i cmd).1.tasks, log ++ (s.handle i cmd).1.outputs⟩ :=
  run.step (.handle i rfl hC)

/-- A negotiation that comes back. -/
lemma Run.answered {myId : NodeId} {maxArcs : ℕ} {requireAuth : Bool} {s : Manager}
    {queue : List Command} {mac : Mac} {canI : Bool} {inserted : Token} {ts : Multiset ArcTask}
    {log : List Output}
    (run : Run C myId maxArcs requireAuth ⟨s, queue, .negotiation mac canI inserted ::ₘ ts, log⟩)
    (canYou : Bool) :
    Run C myId maxArcs requireAuth
      ⟨s, queue ++ [.requestArcNegotiated mac canI canYou inserted], ts, log⟩ :=
  run.step (.negotiated canYou rfl)

/-- A command that joins the queue. -/
lemma Run.issued {myId : NodeId} {maxArcs : ℕ} {requireAuth : Bool} {s : Manager}
    {queue : List Command} {ts : Multiset ArcTask} {log : List Output}
    (run : Run C myId maxArcs requireAuth ⟨s, queue, ts, log⟩) (cmd : Command)
    (hext : cmd.result = none) :
    Run C myId maxArcs requireAuth ⟨s, queue ++ [cmd], ts, log⟩ :=
  run.step (.issue _ cmd hext)

/-- The first sample of a monitor. -/
lemma Run.sampled {myId : NodeId} {maxArcs : ℕ} {requireAuth : Bool} {s : Manager}
    {queue : List Command} {ctx : ArcMonitorContext} {cancel : Token} {ts : Multiset ArcTask}
    {log : List Output}
    (run : Run C myId maxArcs requireAuth ⟨s, queue, .monitor ctx cancel none ::ₘ ts, log⟩)
    (rtt : UInt64) (hlive : cancel ∉ s.cancelled) :
    Run C myId maxArcs requireAuth ⟨s, queue,
      .reporting ctx (.firstSample rtt) (some (cancel, some rtt)) ::ₘ ts, log⟩ :=
  run.step (Step.probe (a := ⟨s, queue, .monitor ctx cancel none ::ₘ ts, log⟩) (some rtt) true rfl
    hlive)

/-- A report that joins the queue. -/
lemma Run.reports {myId : NodeId} {maxArcs : ℕ} {requireAuth : Bool} {s : Manager}
    {queue : List Command} {ctx : ArcMonitorContext} {outcome : MonitorOutcome}
    {next : Option (Token × Option UInt64)} {ts : Multiset ArcTask} {log : List Output}
    (run : Run C myId maxArcs requireAuth ⟨s, queue, .reporting ctx outcome next ::ₘ ts, log⟩) :
    Run C myId maxArcs requireAuth ⟨s, queue ++ [.monitorResult ctx.key outcome ctx.inserted],
      reported ctx next + ts, log⟩ :=
  run.step (.report rfl)

end Actor

end Netsukuku.Neighborhood
