import Mathlib
import Netsukuku.Hooking.Domain
import Netsukuku.Hooking.MergeVerdict
import Netsukuku.Hooking.Episodes

/-!
# The handler of one arc

One task an arc: it reads the neighbour's network, decides who moves, takes the commit slot of its
identity, and drives the entry.  Every `await` of the source is a stage, and `resume` is what the
handler does from one await to the next, with everything it sends in the order it sends it.

* `mergeDirection` — who moves, by the sizes both sides report.
* `HandlerStage.resume` — the next turn of a handler.
* `Commit.Kept` — what the commit phase keeps; `resume_kept`.
* `resume_episode` — a turn in the commit phase is a turn of the `Episode` around the arbiter, or
  none of its concern.
-/

namespace Netsukuku.Hooking

/-! ## What is exchanged -/

/-- `ArcId`. -/
structure ArcId where
  raw : UInt64
  deriving DecidableEq, Repr

/-- `NetworkData`. -/
structure NetworkData where
  networkId : Int64
  neighborNNodes : ℕ
  neighborMinLevel : ℕ
  gsizes : List UInt32
  neighborPos : List UInt32
  deriving DecidableEq

/-- `MergeDecision`. -/
inductive MergeDecision where
  | proceed
  | askCoordinator
  | wait
  deriving DecidableEq, Repr

/-- `n.saturating_mul(10)` on 64 bits. -/
def tenfold (n : ℕ) : ℕ := min (n * 10) (2 ^ 64 - 1)

/-- `merge_direction`. -/
def mergeDirection (myNNodes neighborNNodes : ℕ) : MergeDecision :=
  if neighborNNodes = myNNodes then .askCoordinator
  else if myNNodes < neighborNNodes then
    if tenfold myNNodes < neighborNNodes then .proceed else .askCoordinator
  else if tenfold neighborNNodes < myNNodes then .wait
  else .askCoordinator

/-- `ArcPhase`. -/
inductive ArcPhase where
  | discovering
  | sameNetwork
  | incompatibleTopology
  | connectivity
  | waiting
  | evaluating
  | entering (askLvl : ℕ)
  | entered (askLvl : ℕ)
  | failed
  deriving DecidableEq, Repr

/-- The part of `HookingEvent` a handler emits itself. -/
inductive HookingEvent where
  | failingArc (arc : ArcId)
  | sameNetwork (arc : ArcId)
  | anotherNetwork (arc : ArcId) (networkId : Int64)
  deriving DecidableEq, Repr

/-- `Command` of the manager; a task is named by the number it was spawned under. -/
inductive Command where
  | addArc (arc : ArcId)
  | removeArc (arc : ArcId)
  | setArcPhase (arc : ArcId) (phase : ArcPhase)
  | markEntered (arc : ArcId) (askLvl : ℕ) (entryData : EntryData)
  | tryBeginCommit (task : ℕ)
  | endCommit
  deriving DecidableEq

/-- The error domains a handler tells apart. -/
inductive PeerDomain where
  | notBootstrapped
  | hookingNotPrincipal
  | noMigrationPathFound
  | migrationPathExecuteFailure
  | other
  deriving DecidableEq, Repr

/-- `RpcError`, as far as a handler tells it apart. -/
inductive PeerError where
  | remote (domain : PeerDomain)
  | timeout
  | transport
  deriving DecidableEq, Repr

/-- `remote_domain`. -/
def remoteDomain : PeerError → Option PeerDomain
  | .remote d => some d
  | _ => none

/-- `CoordinatorError`, as far as a handler tells it apart. -/
inductive CoordinatorError where
  | unreachable
  | askAgain
  | ignoreNetwork
  | alreadyEntering
  | noCoordinatorForLevel
  deriving DecidableEq, Repr

/-- What a handler reads when it is woken: its view of the map, the size of its network, and the id
the generator would give it. -/
structure Sight where
  view : QspnView
  nNodes : ℕ
  freshId : Int32

/-- `i_am_real`. -/
def iAmReal (view : QspnView) : Bool :=
  (List.range view.levels).all fun i => decide ((view.myPos i).toNat < view.gsize i)

/-- `my_gsizes`. -/
def myGsizes (view : QspnView) : List UInt32 :=
  (List.range view.levels).map fun i => (view.topology.gsize i).getD 0

/-! ## The stages -/

/-- What a handler carries from the moment it holds the commit slot. -/
structure Commit where
  networkData : NetworkData
  evaluateEnterId : Int32
  unreachableRetries : ℕ
  askLvl : ℕ
  execFailures : ℕ
  enterGuard : Option EnterGuard
  deriving DecidableEq

/-- The awaits of the commit phase. -/
inductive CommitStage where
  | evaluating
  -- Before the same evaluation is asked again.
  | pausing (unreachable : Bool)
  | beginning
  | searching
  | aborting (why : AbortReason)
  | backingOff
  | completing (entryData : EntryData)
  | preparing (entryData : EntryData)
  | finishing (entryData : EntryData)
  -- Before the outer loop is taken from its head; both guards are held until then.
  | restarting
  deriving DecidableEq

/-- The awaits of `run_arc_handler`. -/
inductive HandlerStage where
  | starting
  | discovering
  | notBootstrapped
  | recounting
  | arbitrating (networkData : NetworkData)
  | rejected
  | begging (networkData : NetworkData)
  | committing (stage : CommitStage) (c : Commit)
  | over
  deriving DecidableEq

/-- What ends an await. -/
inductive Wake where
  | polled
  | networkData (answer : Except PeerError NetworkData)
  | slept
  | cancelled
  | verdict (proceed : Bool)
  | granted (ok : Bool)
  | evaluated (answer : Except CoordinatorError ℕ)
  | begun (answer : Except CoordinatorError Unit)
  | searched (answer : Except PeerError EntryData)
  | released (ok : Bool)
  | told
  -- The task is aborted where it stands.
  | aborted

/-- What a handler sends on its way. -/
inductive Output where
  | send (cmd : Command)
  | emit (event : HookingEvent)
  | arbitrate (req : MergeArbitrationRequest)
  | ask (req : EnterRequest)
  | begin (lvl : ℕ)
  | prepare (lvl : ℕ)
  | finish (lvl : ℕ) (entryData : EntryData)
  deriving DecidableEq

/-- `set_arc_phase`. -/
def phase (arc : ArcId) (p : ArcPhase) : Output := .send (.setArcPhase arc p)

namespace Commit

/-- `note_released`, of a call for `askLvl` that succeeded. -/
def noteReleased (c : Commit) : Commit :=
  { c with enterGuard := c.enterGuard.map fun g =>
      if c.askLvl = g.level then { g with resolved := true } else g }

/-- The guards go out of scope, the entry's before the slot's. -/
def drop (c : Commit) : List Output :=
  (match c.enterGuard with
    | some g => if g.resolved then [] else [.ask (.abort g.level)]
    | none => []) ++ [.send .endCommit]

/-- The head of the `'begin` loop. -/
def begin (arc : ArcId) (c : Commit) : HandlerStage × List Output :=
  (.committing .beginning c, [phase arc (.entering c.askLvl), .begin c.askLvl])

/-- What follows an abort that was acknowledged. -/
def afterAbort (arc : ArcId) (c : Commit) : AbortReason → HandlerStage × List Output
  | .targetChanged => (.committing .restarting c, [])
  | .noMigrationPath =>
      if c.askLvl = 0 then (.committing .restarting c, [])
      else begin arc { c with askLvl := c.askLvl - 1 }
  | .executeFailure =>
      if maxExecFailures ≤ c.execFailures + 1 then
        (.committing .restarting { c with execFailures := c.execFailures + 1 }, [])
      else (.committing .backingOff { c with execFailures := c.execFailures + 1 }, [])

/-- The error of a search, with a timeout taken for a failed execution. -/
def searchFailure : PeerError → Option PeerDomain
  | .timeout => some .migrationPathExecuteFailure
  | e => remoteDomain e

/-- What follows the answer of the search. -/
def afterSearch (arc : ArcId) (view : QspnView) (c : Commit) :
    Except PeerError EntryData → HandlerStage × List Output
  | .ok entry =>
      if entry.networkId ≠ c.networkData.networkId then
        (.committing (.aborting .targetChanged) c, [.ask (.abort c.askLvl)])
      else if 1 ≤ c.askLvl ∧ view.networkId = entry.networkId then
        (.committing (.aborting .targetChanged) c, [.ask (.abort c.askLvl)])
      else (.committing (.completing entry) c, [.ask (.completed c.askLvl)])
  | .error e =>
      match searchFailure e with
      | some .noMigrationPathFound =>
          (.committing (.aborting .noMigrationPath) c, [.ask (.abort c.askLvl)])
      | some .migrationPathExecuteFailure =>
          (.committing (.aborting .executeFailure) c, [.ask (.abort c.askLvl)])
      | _ => (.over, [.emit (.failingArc arc), phase arc .failed] ++ c.drop)

/-- What follows the answer of `evaluate_enter`. -/
def afterEvaluate (arc : ArcId) (c : Commit) :
    Except CoordinatorError ℕ → HandlerStage × List Output
  | .ok lvl => begin arc { c with
      askLvl := lvl, execFailures := 0, enterGuard := some ⟨lvl, false⟩ }
  | .error .askAgain => (.committing (.pausing false) c, [])
  | .error .ignoreNetwork => (.committing .restarting c, [])
  | .error .unreachable =>
      if c.unreachableRetries < evaluateEnterUnreachableRetries then
        (.committing (.pausing true) { c with unreachableRetries := c.unreachableRetries + 1 }, [])
      else (.over, c.drop)
  | .error _ => (.over, c.drop)

/-- What follows the answer of `begin_enter`. -/
def afterBegin (c : Commit) : Except CoordinatorError Unit → HandlerStage × List Output
  | .ok () => (.committing .searching c, [])
  | .error .alreadyEntering => (.committing .restarting c, [])
  | .error _ => (.over, c.drop)

/-- One turn in the commit phase; `none` if the handler is not waiting for this. -/
def resume (arc : ArcId) (token : Bool) (s : Sight) (c : Commit) :
    CommitStage → Wake → Option (HandlerStage × List Output)
  | _, .aborted => some (.over, c.drop)
  | .evaluating, .evaluated answer => some (c.afterEvaluate arc answer)
  | .pausing _, .slept => some (.committing .evaluating c, [.ask .evaluate])
  | .beginning, .begun answer => some (c.afterBegin answer)
  | .searching, .searched answer => some (c.afterSearch arc s.view answer)
  | .aborting why, .released true => some (c.noteReleased.afterAbort arc why)
  | .aborting _, .released false => some (.over, c.drop)
  | .backingOff, .slept => some (c.begin arc)
  | .completing entry, .released true =>
      some (.committing (.preparing entry) c.noteReleased, [.prepare c.askLvl])
  | .completing _, .released false => some (.over, c.drop)
  | .preparing entry, .told => some (.committing (.finishing entry) c, [.finish c.askLvl entry])
  | .finishing entry, .told => some (.over, .send (.markEntered arc c.askLvl entry) :: c.drop)
  | .restarting, .slept => some (.starting, c.drop)
  | .pausing _, .cancelled | .backingOff, .cancelled | .restarting, .cancelled =>
      if token then some (.over, c.drop) else none
  | _, _ => none

end Commit

/-- What follows the first answer of the neighbour. -/
def afterNetworkData (arc : ArcId) (task : ℕ) (s : Sight) (nd : NetworkData) :
    HandlerStage × List Output :=
  if nd.networkId = s.view.networkId then
    (.over, [.emit (.sameNetwork arc), phase arc .sameNetwork])
  else if nd.gsizes ≠ myGsizes s.view then (.over, [phase arc .incompatibleTopology])
  else
    let found := Output.emit (.anotherNetwork arc nd.networkId)
    match mergeDirection s.nNodes nd.neighborNNodes with
    | .proceed => (.begging nd, [found, .send (.tryBeginCommit task)])
    | .wait => (.rejected, [found, phase arc .waiting])
    | .askCoordinator => (.recounting, [found])

/-- What follows an answer that is an error. -/
def afterPeerError (arc : ArcId) (retry : Option HandlerStage) (e : PeerError) :
    HandlerStage × List Output :=
  match remoteDomain e, retry with
  | some .notBootstrapped, some stage => (stage, [])
  | some .hookingNotPrincipal, _ => (.over, [phase arc .connectivity])
  | _, _ => (.over, [.emit (.failingArc arc), phase arc .failed])

/-- One turn of `run_arc_handler`; `none` if the handler is not waiting for this.  `token` is its
own cancellation token. -/
def HandlerStage.resume (arc : ArcId) (task : ℕ) (token : Bool) (s : Sight) :
    HandlerStage → Wake → Option (HandlerStage × List Output)
  | .over, _ => none
  | .committing stage c, wake => c.resume arc token s stage wake
  | _, .aborted => some (.over, [])
  | .starting, .polled =>
      if token then some (.over, [])
      else if !iAmReal s.view then some (.over, [phase arc .connectivity])
      else some (.discovering, [phase arc .discovering])
  | .discovering, .networkData (.ok nd) => some (afterNetworkData arc task s nd)
  | .discovering, .networkData (.error e) => some (afterPeerError arc (some .notBootstrapped) e)
  | .notBootstrapped, .slept => some (.discovering, [])
  | .recounting, .networkData (.ok nd) => some (.arbitrating nd,
      [.arbitrate ⟨s.view.networkId, nd.networkId, nd.neighborNNodes⟩])
  | .recounting, .networkData (.error e) => some (afterPeerError arc none e)
  | .arbitrating nd, .verdict true => some (.begging nd, [.send (.tryBeginCommit task)])
  | .arbitrating _, .verdict false => some (.rejected, [phase arc .waiting])
  | .rejected, .slept => some (.starting, [])
  | .begging nd, .granted true => some (.committing .evaluating ⟨nd, s.freshId, 0, 0, 0, none⟩,
      [phase arc .evaluating, .ask .evaluate])
  | .begging _, .granted false => some (.rejected, [phase arc .waiting])
  | .notBootstrapped, .cancelled | .rejected, .cancelled => if token then some (.over, []) else none
  | _, _ => none

/-! ## What a turn sends to the manager -/

/-- The commands among the outputs. -/
def commands (out : List Output) : List Command :=
  out.filterMap fun o => match o with
    | .send cmd => some cmd
    | _ => none

/-- The requests to the arbiter among the outputs. -/
def requests (out : List Output) : List EnterRequest :=
  out.filterMap fun o => match o with
    | .ask req => some req
    | _ => none

/-- The handler holds the commit slot. -/
def HandlerStage.Commits : HandlerStage → Prop
  | .committing _ _ => True
  | _ => False

/-- The handler waits for the answer about the commit slot. -/
def HandlerStage.Begs : HandlerStage → Prop
  | .begging _ => True
  | _ => False

instance : DecidablePred HandlerStage.Commits := fun stage => by
  cases stage <;> simp only [HandlerStage.Commits] <;> infer_instance

instance : DecidablePred HandlerStage.Begs := fun stage => by
  cases stage <;> simp only [HandlerStage.Begs] <;> infer_instance

section Turn

variable {arc : ArcId} {task : ℕ} {token : Bool} {s : Sight} {wake : Wake}
  {stage stage' : HandlerStage} {cs : CommitStage} {c : Commit} {out : List Output}

@[simp] lemma commands_nil : commands [] = [] := rfl

@[simp] lemma commands_append (a b : List Output) : commands (a ++ b) = commands a ++ commands b :=
  List.filterMap_append ..

@[simp] lemma commands_send (cmd : Command) (l : List Output) :
    commands (.send cmd :: l) = cmd :: commands l := rfl

@[simp] lemma commands_phase (p : ArcPhase) (l : List Output) :
    commands (phase arc p :: l) = .setArcPhase arc p :: commands l := rfl

@[simp] lemma commands_emit (e : HookingEvent) (l : List Output) :
    commands (.emit e :: l) = commands l := rfl

@[simp] lemma commands_arbitrate (r : MergeArbitrationRequest) (l : List Output) :
    commands (.arbitrate r :: l) = commands l := rfl

@[simp] lemma commands_ask (r : EnterRequest) (l : List Output) :
    commands (.ask r :: l) = commands l := rfl

@[simp] lemma commands_begin (n : ℕ) (l : List Output) :
    commands (.begin n :: l) = commands l := rfl

@[simp] lemma commands_prepare (n : ℕ) (l : List Output) :
    commands (.prepare n :: l) = commands l := rfl

@[simp] lemma commands_finish (n : ℕ) (e : EntryData) (l : List Output) :
    commands (.finish n e :: l) = commands l := rfl

@[simp] lemma commands_drop (c : Commit) : commands c.drop = [.endCommit] := by
  cases hg : c.enterGuard with
  | none => simp [Commit.drop, hg]
  | some g => cases hr : g.resolved <;> simp [Commit.drop, hg, hr]

/-- A command that does not concern the slot and comes from a handler. -/
def Command.quiet : Command → Bool
  | .setArcPhase _ _ => true
  | .markEntered _ _ _ => true
  | _ => false

/-- The other commands. -/
def slotCommands (out : List Output) : List Command := (commands out).filter (!·.quiet)

@[simp] lemma slotCommands_drop : slotCommands c.drop = [.endCommit] := by
  simp [slotCommands, Command.quiet]

/-- What the slot is owed when a commit phase goes to `stage'`. -/
def owed (stage' : HandlerStage) : List Command := if stage'.Commits then [] else [.endCommit]

/-- The commit phase goes on and keeps the slot, or ends and gives it back. -/
def SlotKept (r : HandlerStage × List Output) : Prop := slotCommands r.2 = owed r.1 ∧ ¬ r.1.Begs

lemma slotKept_drop (hs : ¬ stage.Commits) (hb : ¬ stage.Begs) : SlotKept (stage, c.drop) := by
  simp [SlotKept, owed, hs, hb]

lemma slotKept_over : SlotKept (.over, c.drop) := slotKept_drop id id

lemma slotKept_stay (h : slotCommands out = []) : SlotKept (.committing cs c, out) := by
  simp [SlotKept, owed, HandlerStage.Commits, HandlerStage.Begs, h]

lemma slotKept_begin : SlotKept (c.begin arc) :=
  slotKept_stay (by simp [slotCommands, Command.quiet])

lemma slotKept_afterAbort (why : AbortReason) : SlotKept (c.afterAbort arc why) := by
  cases why with
  | noMigrationPath =>
      simp only [Commit.afterAbort]
      split_ifs
      · exact slotKept_stay rfl
      · exact slotKept_begin
  | executeFailure =>
      simp only [Commit.afterAbort]
      split_ifs
      · exact slotKept_stay rfl
      · exact slotKept_stay rfl
  | targetChanged => exact slotKept_stay rfl

lemma slotKept_afterSearch (answer : Except PeerError EntryData) :
    SlotKept (c.afterSearch arc s.view answer) := by
  cases answer with
  | ok entry =>
      simp only [Commit.afterSearch]
      split_ifs
      · exact slotKept_stay rfl
      · exact slotKept_stay rfl
      · exact slotKept_stay rfl
  | error e =>
      simp only [Commit.afterSearch]
      split
      · exact slotKept_stay rfl
      · exact slotKept_stay rfl
      · simp [SlotKept, slotCommands, Command.quiet, owed, HandlerStage.Commits, HandlerStage.Begs]

lemma slotKept_afterEvaluate (answer : Except CoordinatorError ℕ) :
    SlotKept (c.afterEvaluate arc answer) := by
  cases answer with
  | ok lvl => exact slotKept_begin
  | error e =>
      cases e with
      | unreachable =>
          simp only [Commit.afterEvaluate]
          split_ifs
          · exact slotKept_stay rfl
          · exact slotKept_over
      | askAgain => exact slotKept_stay rfl
      | ignoreNetwork => exact slotKept_stay rfl
      | alreadyEntering => exact slotKept_over
      | noCoordinatorForLevel => exact slotKept_over

lemma slotKept_afterBegin (answer : Except CoordinatorError Unit) :
    SlotKept (c.afterBegin answer) := by
  cases answer with
  | ok u => exact slotKept_stay rfl
  | error e =>
      cases e with
      | alreadyEntering => exact slotKept_stay rfl
      | _ => exact slotKept_over

/-- The turns of the commit phase. -/
inductive CommitTurn (arc : ArcId) (s : Sight) (c : Commit) :
    CommitStage → Wake → HandlerStage × List Output → Prop where
  | aborted (cs : CommitStage) : CommitTurn arc s c cs .aborted (.over, c.drop)
  | cancelled (cs : CommitStage) : CommitTurn arc s c cs .cancelled (.over, c.drop)
  | evaluated (answer : Except CoordinatorError ℕ) :
      CommitTurn arc s c .evaluating (.evaluated answer) (c.afterEvaluate arc answer)
  | asked (u : Bool) :
      CommitTurn arc s c (.pausing u) .slept (.committing .evaluating c, [.ask .evaluate])
  | begun (answer : Except CoordinatorError Unit) :
      CommitTurn arc s c .beginning (.begun answer) (c.afterBegin answer)
  | searched (answer : Except PeerError EntryData) :
      CommitTurn arc s c .searching (.searched answer) (c.afterSearch arc s.view answer)
  | released (why : AbortReason) :
      CommitTurn arc s c (.aborting why) (.released true) (c.noteReleased.afterAbort arc why)
  | unreleased (why : AbortReason) :
      CommitTurn arc s c (.aborting why) (.released false) (.over, c.drop)
  | resumed : CommitTurn arc s c .backingOff .slept (c.begin arc)
  | completed (entry : EntryData) : CommitTurn arc s c (.completing entry) (.released true)
      (.committing (.preparing entry) c.noteReleased, [.prepare c.askLvl])
  | uncompleted (entry : EntryData) :
      CommitTurn arc s c (.completing entry) (.released false) (.over, c.drop)
  | prepared (entry : EntryData) : CommitTurn arc s c (.preparing entry) .told
      (.committing (.finishing entry) c, [.finish c.askLvl entry])
  | finished (entry : EntryData) : CommitTurn arc s c (.finishing entry) .told
      (.over, .send (.markEntered arc c.askLvl entry) :: c.drop)
  | restarted : CommitTurn arc s c .restarting .slept (.starting, c.drop)

lemma commit_turn {r : HandlerStage × List Output} (h : c.resume arc token s cs wake = some r) :
    CommitTurn arc s c cs wake r := by
  cases wake with
  | aborted => cases cs <;> cases h <;> exact .aborted _
  | cancelled =>
      cases cs <;> simp only [Commit.resume, reduceCtorEq, Option.ite_none_right_eq_some] at h
      all_goals
        obtain ⟨-, h⟩ := h
        cases h
        exact .cancelled _
  | slept =>
      cases cs <;> cases h
      · exact .asked _
      · exact .resumed
      · exact .restarted
  | evaluated answer =>
      cases cs <;> cases h
      exact .evaluated answer
  | begun answer =>
      cases cs <;> cases h
      exact .begun answer
  | searched answer =>
      cases cs <;> cases h
      exact .searched answer
  | released ok =>
      cases cs <;> cases ok <;> cases h
      · exact .unreleased _
      · exact .released _
      · exact .uncompleted _
      · exact .completed _
  | told =>
      cases cs <;> cases h
      · exact .prepared _
      · exact .finished _
  | polled | networkData | verdict | granted => cases cs <;> cases h

/-- A handler in its commit phase gives the slot back exactly when it leaves. -/
lemma commit_slot {r : HandlerStage × List Output} (h : CommitTurn arc s c cs wake r) :
    SlotKept r := by
  cases h with
  | aborted => exact slotKept_over
  | cancelled => exact slotKept_over
  | evaluated answer => exact slotKept_afterEvaluate answer
  | asked => exact slotKept_stay rfl
  | begun answer => exact slotKept_afterBegin answer
  | searched answer => exact slotKept_afterSearch answer
  | released why => exact slotKept_afterAbort why
  | unreleased => exact slotKept_over
  | resumed => exact slotKept_begin
  | completed => exact slotKept_stay rfl
  | uncompleted => exact slotKept_over
  | prepared => exact slotKept_stay rfl
  | finished =>
      simp [SlotKept, slotCommands, Command.quiet, owed, HandlerStage.Commits, HandlerStage.Begs]
  | restarted => exact slotKept_drop id id

/-- The handler neither holds the slot nor waits for it. -/
def HandlerStage.Free (stage : HandlerStage) : Prop := ¬ stage.Commits ∧ ¬ stage.Begs

/-- The turns of a handler, as far as they concern the slot. -/
inductive HandlerTurn (arc : ArcId) (task : ℕ) (s : Sight) :
    HandlerStage → Wake → HandlerStage × List Output → Prop where
  | commit {cs : CommitStage} {c : Commit} {wake : Wake} {r : HandlerStage × List Output}
      (h : CommitTurn arc s c cs wake r) : HandlerTurn arc task s (.committing cs c) wake r
  | granted (nd : NetworkData) : HandlerTurn arc task s (.begging nd) (.granted true)
      (.committing .evaluating ⟨nd, s.freshId, 0, 0, 0, none⟩,
        [phase arc .evaluating, .ask .evaluate])
  | denied (nd : NetworkData) : HandlerTurn arc task s (.begging nd) (.granted false)
      (.rejected, [phase arc .waiting])
  | dropped (nd : NetworkData) : HandlerTurn arc task s (.begging nd) .aborted (.over, [])
  | begged {stage : HandlerStage} {wake : Wake} {out : List Output} (nd : NetworkData)
      (hfree : stage.Free) (hout : slotCommands out = [.tryBeginCommit task]) :
      HandlerTurn arc task s stage wake (.begging nd, out)
  | other {stage stage' : HandlerStage} {wake : Wake} {out : List Output}
      (hfree : stage.Free) (hfree' : stage'.Free) (hout : slotCommands out = []) :
      HandlerTurn arc task s stage wake (stage', out)

lemma turn_afterPeerError {retry : Option HandlerStage} (hretry : ∀ st ∈ retry, st.Free)
    (hfree : stage.Free) (e : PeerError) :
    HandlerTurn arc task s stage wake (afterPeerError arc retry e) := by
  simp only [afterPeerError]
  split
  · exact .other hfree (hretry _ rfl) rfl
  · exact .other hfree ⟨id, id⟩ rfl
  · exact .other hfree ⟨id, id⟩ rfl

lemma turn_afterNetworkData (hfree : stage.Free) (nd : NetworkData) :
    HandlerTurn arc task s stage wake (afterNetworkData arc task s nd) := by
  simp only [afterNetworkData]
  split_ifs
  · exact .other hfree ⟨id, id⟩ rfl
  · exact .other hfree ⟨id, id⟩ rfl
  · cases mergeDirection s.nNodes nd.neighborNNodes with
    | proceed => exact .begged nd hfree rfl
    | wait => exact .other hfree ⟨id, id⟩ rfl
    | askCoordinator => exact .other hfree ⟨id, id⟩ rfl

lemma handler_turn {r : HandlerStage × List Output}
    (h : stage.resume arc task token s wake = some r) : HandlerTurn arc task s stage wake r := by
  cases stage with
  | starting =>
      cases wake with
      | polled =>
          simp only [HandlerStage.resume] at h
          split_ifs at h <;> cases h <;> exact .other ⟨id, id⟩ ⟨id, id⟩ rfl
      | aborted => cases h; exact .other ⟨id, id⟩ ⟨id, id⟩ rfl
      | _ => cases h
  | discovering =>
      cases wake with
      | networkData answer =>
          cases answer with
          | ok nd => cases h; exact turn_afterNetworkData ⟨id, id⟩ nd
          | error e =>
              cases h
              exact turn_afterPeerError (by simp [HandlerStage.Free, HandlerStage.Commits,
                HandlerStage.Begs]) ⟨id, id⟩ e
      | aborted => cases h; exact .other ⟨id, id⟩ ⟨id, id⟩ rfl
      | _ => cases h
  | notBootstrapped | rejected =>
      cases wake with
      | slept => cases h; exact .other ⟨id, id⟩ ⟨id, id⟩ rfl
      | cancelled =>
          simp only [HandlerStage.resume, Option.ite_none_right_eq_some] at h
          obtain ⟨-, h⟩ := h
          cases h
          exact .other ⟨id, id⟩ ⟨id, id⟩ rfl
      | aborted => cases h; exact .other ⟨id, id⟩ ⟨id, id⟩ rfl
      | _ => cases h
  | recounting =>
      cases wake with
      | networkData answer =>
          cases answer with
          | ok nd => cases h; exact .other ⟨id, id⟩ ⟨id, id⟩ rfl
          | error e => cases h; exact turn_afterPeerError (by simp) ⟨id, id⟩ e
      | aborted => cases h; exact .other ⟨id, id⟩ ⟨id, id⟩ rfl
      | _ => cases h
  | arbitrating nd =>
      cases wake with
      | verdict proceed =>
          cases proceed with
          | true => cases h; exact .begged nd ⟨id, id⟩ rfl
          | false => cases h; exact .other ⟨id, id⟩ ⟨id, id⟩ rfl
      | aborted => cases h; exact .other ⟨id, id⟩ ⟨id, id⟩ rfl
      | _ => cases h
  | begging nd =>
      cases wake with
      | granted ok =>
          cases ok with
          | true => cases h; exact .granted nd
          | false => cases h; exact .denied nd
      | aborted => cases h; exact .dropped nd
      | _ => cases h
  | committing cs c => exact .commit (commit_turn h)
  | _ => cases h

end Turn

/-! ## What the commit phase keeps -/

namespace Commit

/-- The guard is at the level that was granted or above the one that is worked on, and an unresolved
one is there exactly. -/
def Guarded (c : Commit) : Prop :=
  ∃ g, c.enterGuard = some g ∧ c.askLvl ≤ g.level ∧ (g.resolved = false → c.askLvl = g.level)

/-- A report was acknowledged, so that the guard asks for nothing more. -/
def Reported (c : Commit) : Prop :=
  ∃ g, c.enterGuard = some g ∧ c.askLvl ≤ g.level ∧ g.resolved = true

/-- What holds at each await of the commit phase. -/
def Kept (c : Commit) : CommitStage → Prop
  | .evaluating => c.enterGuard = none
  | .pausing u => c.enterGuard = none ∧
      (u = true → 0 < c.unreachableRetries ∧
        c.unreachableRetries ≤ evaluateEnterUnreachableRetries)
  | .beginning | .searching | .aborting _ | .backingOff => c.Guarded
  | .completing entry => c.Guarded ∧ entry.networkId = c.networkData.networkId
  | .preparing entry | .finishing entry =>
      c.Reported ∧ entry.networkId = c.networkData.networkId
  | .restarting => c.enterGuard = none ∨ c.Guarded

end Commit

/-- The invariant of a handler: what holds in its commit phase. -/
def HandlerStage.Kept : HandlerStage → Prop
  | .committing cs c => c.Kept cs
  | _ => True

section Kept

variable {arc : ArcId} {task : ℕ} {token : Bool} {s : Sight} {wake : Wake}
  {stage stage' : HandlerStage} {cs : CommitStage} {c : Commit} {out : List Output}

lemma guarded_of_reported (h : c.Reported) : c.Guarded := by
  obtain ⟨g, hg, hle, hres⟩ := h
  exact ⟨g, hg, hle, fun hf => absurd hf (by simp [hres])⟩

/-- An acknowledged report resolves the guard, or found it resolved. -/
lemma reported_noteReleased (h : c.Guarded) : c.noteReleased.Reported := by
  obtain ⟨g, hg, hle, hres⟩ := h
  refine ⟨if c.askLvl = g.level then { g with resolved := true } else g, ?_, ?_, ?_⟩
  · simp [Commit.noteReleased, hg]
  · split_ifs <;> exact hle
  · split_ifs with heq
    · rfl
    · by_contra hf
      exact heq (hres (by simpa using hf))

lemma kept_begin (h : c.Guarded) : (c.begin arc).1.Kept := h

lemma kept_afterAbort (h : c.Reported) (why : AbortReason) : (c.afterAbort arc why).1.Kept := by
  cases why with
  | targetChanged => exact Or.inr (guarded_of_reported h)
  | noMigrationPath =>
      simp only [Commit.afterAbort]
      split_ifs
      · exact Or.inr (guarded_of_reported h)
      · obtain ⟨g, hg, hle, hres⟩ := h
        refine kept_begin ⟨g, hg, ?_, fun hf => absurd hf (by simp [hres])⟩
        exact le_trans (Nat.sub_le _ _) hle
  | executeFailure =>
      simp only [Commit.afterAbort]
      split_ifs
      · exact Or.inr (guarded_of_reported h)
      · exact guarded_of_reported h

lemma kept_afterSearch (h : c.Guarded) (view : QspnView) (answer : Except PeerError EntryData) :
    (c.afterSearch arc view answer).1.Kept := by
  cases answer with
  | ok entry =>
      simp only [Commit.afterSearch]
      split_ifs with hnet hown
      · exact h
      · exact h
      · exact ⟨h, by simpa using hnet⟩
  | error e =>
      simp only [Commit.afterSearch]
      split
      · exact h
      · exact h
      · trivial

lemma kept_afterEvaluate (h : c.Kept .evaluating) (answer : Except CoordinatorError ℕ) :
    (c.afterEvaluate arc answer).1.Kept := by
  cases answer with
  | ok lvl => exact ⟨_, rfl, le_rfl, fun _ => rfl⟩
  | error e =>
      cases e with
      | unreachable =>
          simp only [Commit.afterEvaluate]
          split_ifs with hlt
          · exact ⟨h, fun _ => ⟨Nat.succ_pos _, hlt⟩⟩
          · trivial
      | askAgain => exact ⟨h, nofun⟩
      | ignoreNetwork => exact Or.inl h
      | alreadyEntering => trivial
      | noCoordinatorForLevel => trivial

lemma kept_afterBegin (h : c.Guarded) (answer : Except CoordinatorError Unit) :
    (c.afterBegin answer).1.Kept := by
  cases answer with
  | ok u => exact h
  | error e =>
      cases e with
      | alreadyEntering => exact Or.inr h
      | _ => trivial

lemma kept_commit {r : HandlerStage × List Output} (h : c.Kept cs)
    (hturn : CommitTurn arc s c cs wake r) : r.1.Kept := by
  cases hturn with
  | aborted | cancelled | unreleased | uncompleted | finished | restarted => trivial
  | evaluated answer => exact kept_afterEvaluate h answer
  | asked => exact h.1
  | begun answer => exact kept_afterBegin h answer
  | searched answer => exact kept_afterSearch h s.view answer
  | released why => exact kept_afterAbort (reported_noteReleased h) why
  | resumed => exact kept_begin h
  | completed entry => exact ⟨reported_noteReleased h.1, h.2⟩
  | prepared entry => exact h

/-- Every turn of a handler keeps the invariant. -/
lemma resume_kept {r : HandlerStage × List Output} (h : stage.Kept)
    (hturn : HandlerTurn arc task s stage wake r) : r.1.Kept := by
  cases hturn with
  | commit hturn => exact kept_commit h hturn
  | granted => exact rfl
  | denied | dropped | begged => trivial
  | @other _ stage' _ _ _ hfree' _ =>
      cases stage' with
      | committing => exact absurd trivial hfree'.1
      | _ => trivial

end Kept

/-! ## The episode around the arbiter -/

/-- What the arbiter's model calls the await. -/
def CommitStage.stage (c : Commit) : CommitStage → Stage
  | .evaluating => .evaluating c.unreachableRetries
  | .pausing false => .evaluating c.unreachableRetries
  | .pausing true => .evaluating (c.unreachableRetries - 1)
  | .beginning | .backingOff => .beginning
  | .searching => .searching
  | .aborting why => .aborting why
  | .completing _ => .completing
  | .preparing _ | .finishing _ | .restarting => .leaving

/-- The commit phase as an episode. -/
def Commit.episode (c : Commit) (cs : CommitStage) : Episode where
  networkId := c.networkData.networkId
  evaluateEnterId := c.evaluateEnterId
  stage := cs.stage c
  askLvl := c.askLvl
  execFailures := c.execFailures
  guard := c.enterGuard

/-- An episode woken by several events in turn, with all it sends. -/
def Episode.replay (ep : Episode) : List EpisodeEvent → Option (Episode × List EnterRequest)
  | [] => some (ep, [])
  | ev :: evs => do
      let (ep', req) ← ep.resume ev
      let (ep'', reqs) ← ep'.replay evs
      return (ep'', req.toList ++ reqs)

/-- Where the episode is after the turn. -/
def HandlerStage.Shows : HandlerStage → Episode → Prop
  | .committing cs c, ep => c.episode cs = ep
  | _, ep => ep.stage = .over

section Simulation

variable {arc : ArcId} {task : ℕ} {s : Sight} {wake : Wake} {cs : CommitStage} {c : Commit}
  {out : List Output} {ep ep' ep'' : Episode} {ev : EpisodeEvent} {evs evs' : List EpisodeEvent}
  {reqs reqs' : List EnterRequest} {req : Option EnterRequest}

/-- The episode is shown the turn: after some events it stands where the handler stands and has
asked for the same. -/
def Follows (ep : Episode) (r : HandlerStage × List Output) : Prop :=
  ∃ evs ep', ep.replay evs = some (ep', requests r.2) ∧ r.1.Shows ep'

lemma replay_one (h : ep.resume ev = some (ep', req)) :
    ep.replay [ev] = some (ep', req.toList) := by
  simp [Episode.replay, h]

lemma replay_append (h : ep.replay evs = some (ep', reqs))
    (h' : ep'.replay evs' = some (ep'', reqs')) :
    ep.replay (evs ++ evs') = some (ep'', reqs ++ reqs') := by
  induction evs generalizing ep reqs with
  | nil =>
      cases h
      exact h'
  | cons ev evs ih =>
      simp only [Episode.replay, Option.bind_eq_bind, Option.bind_eq_some_iff, Option.pure_def,
        Option.some.injEq, Prod.mk.injEq] at h
      obtain ⟨⟨ep₁, req⟩, h₁, ⟨ep₂, reqs₂⟩, h₂, rfl, rfl⟩ := h
      simp [Episode.replay, h₁, ih h₂]

lemma requests_append (a b : List Output) : requests (a ++ b) = requests a ++ requests b :=
  List.filterMap_append ..

@[simp] lemma requests_drop : requests c.drop = ((c.episode cs).dropRequest).toList := by
  cases hg : c.enterGuard with
  | none => simp [Commit.drop, Commit.episode, Episode.dropRequest, hg, requests]
  | some g =>
      cases hr : g.resolved <;>
        simp [Commit.drop, Commit.episode, Episode.dropRequest, hg, hr, requests]

/-- An episode that is not idle and not over can be dropped at any await. -/
lemma follows_drop (ep : Episode) (hidle : ep.stage ≠ .idle) (hover : ep.stage ≠ .over)
    {stage : HandlerStage} (hstage : ¬ stage.Commits) (hout : requests out = ep.dropRequest.toList) :
    Follows ep (stage, out) := by
  have hdrop : ep.resume .dropped = some ep.finish := by
    cases hst : ep.stage <;> simp_all [Episode.resume]
  refine ⟨[.dropped], _, (replay_one hdrop).trans (by rw [hout]), ?_⟩
  cases stage with
  | committing => exact absurd trivial hstage
  | _ => rfl

lemma stage_ne (c : Commit) (cs : CommitStage) :
    (c.episode cs).stage ≠ .idle ∧ (c.episode cs).stage ≠ .over := by
  cases cs with
  | pausing u => cases u <;> exact ⟨nofun, nofun⟩
  | _ => exact ⟨nofun, nofun⟩

/-- The handler leaves, from wherever it stands. -/
lemma follows_leave {stage : HandlerStage} (hstage : ¬ stage.Commits)
    (hout : requests out = requests c.drop) : Follows (c.episode cs) (stage, out) :=
  follows_drop _ (stage_ne c cs).1 (stage_ne c cs).2 hstage (hout.trans requests_drop)

/-- The episode takes one turn and the handler goes on. -/
lemma follows_one {cs' : CommitStage} {c' : Commit} (ev : EpisodeEvent)
    (req : Option EnterRequest) (h : (c.episode cs).resume ev = some (c'.episode cs', req))
    (hout : requests out = req.toList) :
    Follows (c.episode cs) (.committing cs' c', out) :=
  ⟨[ev], _, by rw [hout]; exact replay_one h, rfl⟩

/-- The episode stands still. -/
lemma follows_none {cs' : CommitStage} {c' : Commit} (h : c'.episode cs' = c.episode cs)
    (hout : requests out = []) : Follows (c.episode cs) (.committing cs' c', out) :=
  ⟨[], _, by rw [hout]; rfl, h⟩

lemma follows_afterEvaluate (answer : Except CoordinatorError ℕ) :
    Follows (c.episode .evaluating) (c.afterEvaluate arc answer) := by
  cases answer with
  | ok lvl => exact follows_one (.answered (.accepted lvl)) none rfl rfl
  | error e =>
      cases e with
      | askAgain => exact follows_none rfl rfl
      | ignoreNetwork => exact follows_one (.answered .ignoreNetwork) none rfl rfl
      | unreachable =>
          simp only [Commit.afterEvaluate]
          split_ifs
          · exact follows_none rfl rfl
          · exact follows_leave id rfl
      | alreadyEntering => exact follows_leave id rfl
      | noCoordinatorForLevel => exact follows_leave id rfl

lemma follows_afterBegin (answer : Except CoordinatorError Unit) :
    Follows (c.episode .beginning) (c.afterBegin answer) := by
  cases answer with
  | ok u => exact follows_one (.begun true) none rfl rfl
  | error e =>
      cases e with
      | alreadyEntering => exact follows_one (.begun false) none rfl rfl
      | _ => exact follows_leave id rfl

lemma follows_afterSearch (answer : Except PeerError EntryData) :
    Follows (c.episode .searching) (c.afterSearch arc s.view answer) := by
  cases answer with
  | ok entry =>
      simp only [Commit.afterSearch]
      split_ifs
      · exact follows_one (.entryFound false) (some (.abort c.askLvl)) rfl rfl
      · exact follows_one (.entryFound false) (some (.abort c.askLvl)) rfl rfl
      · exact follows_one (.entryFound true) (some (.completed c.askLvl)) rfl rfl
  | error e =>
      simp only [Commit.afterSearch]
      split
      · exact follows_one .noMigrationPath (some (.abort c.askLvl)) rfl rfl
      · exact follows_one .executeFailed (some (.abort c.askLvl)) rfl rfl
      · exact follows_leave id rfl

lemma follows_afterAbort (why : AbortReason) :
    Follows (c.episode (.aborting why)) (c.noteReleased.afterAbort arc why) := by
  have hturn : (c.episode (.aborting why)).resume (.released true) =
      some ((c.noteReleased.episode (.aborting why)).afterAbort why, none) := rfl
  cases why with
  | targetChanged => exact follows_one _ none hturn rfl
  | noMigrationPath =>
      simp only [Commit.afterAbort]
      split_ifs with hzero
      · refine follows_one _ none (hturn.trans ?_) rfl
        simp [Episode.afterAbort, Commit.episode, hzero, CommitStage.stage]
      · refine follows_one _ none (hturn.trans ?_) rfl
        simp [Episode.afterAbort, Commit.episode, hzero, CommitStage.stage]
  | executeFailure =>
      simp only [Commit.afterAbort]
      split_ifs with hmax
      · refine follows_one _ none (hturn.trans ?_) rfl
        simp [Episode.afterAbort, Commit.episode, hmax, CommitStage.stage]
      · refine follows_one _ none (hturn.trans ?_) rfl
        simp [Episode.afterAbort, Commit.episode, hmax, CommitStage.stage]

/-- A turn of the commit phase is a turn of its episode, or none. -/
lemma commit_episode {r : HandlerStage × List Output} (h : c.Kept cs)
    (hturn : CommitTurn arc s c cs wake r) : Follows (c.episode cs) r := by
  cases hturn with
  | aborted => exact follows_leave id rfl
  | cancelled => exact follows_leave id rfl
  | evaluated answer => exact follows_afterEvaluate answer
  | asked u =>
      cases u with
      | false => exact follows_one (.answered .askAgain) (some .evaluate) rfl rfl
      | true =>
          obtain ⟨hpos, hle⟩ := h.2 rfl
          refine follows_one .unreachable (some .evaluate) ?_ rfl
          have hlt : c.unreachableRetries - 1 < evaluateEnterUnreachableRetries := by omega
          simp only [Episode.resume, Commit.episode, CommitStage.stage, hlt, if_true]
          rw [Nat.sub_add_cancel hpos]
  | begun answer => exact follows_afterBegin answer
  | searched answer => exact follows_afterSearch answer
  | released why => exact follows_afterAbort why
  | unreleased why => exact follows_leave id rfl
  | resumed => exact follows_none rfl rfl
  | completed entry => exact follows_one (.released true) none rfl rfl
  | uncompleted entry => exact follows_leave id rfl
  | prepared entry => exact follows_none rfl rfl
  | finished entry => exact follows_leave id rfl
  | restarted => exact follows_leave id rfl

end Simulation

/-- One pass through the commit phase, from the moment the slot is granted: where the handler
stands, and all it has sent. -/
inductive Pass (arc : ArcId) (task : ℕ) (nd : NetworkData) (id : Int32) :
    HandlerStage → List Output → Prop where
  | granted {token : Bool} {s : Sight} {stage : HandlerStage} {out : List Output}
      (hid : s.freshId = id)
      (h : (HandlerStage.begging nd).resume arc task token s (.granted true) = some (stage, out)) :
      Pass arc task nd id stage out
  | turn {token : Bool} {s : Sight} {wake : Wake} {cs : CommitStage} {c : Commit}
      {stage : HandlerStage} {out out' : List Output}
      (hpass : Pass arc task nd id (.committing cs c) out)
      (h : (HandlerStage.committing cs c).resume arc task token s wake = some (stage, out')) :
      Pass arc task nd id stage (out ++ out')

/-- The episode that a handler starts when the slot is granted. -/
def startEpisode (nd : NetworkData) (id : Int32) : Episode := ⟨nd.networkId, id, .idle, 0, 0, none⟩

/-- A pass through the commit phase is a run of one episode of the arbiter's model: the same
requests in the same order, and over exactly when the handler has given the slot back. -/
theorem pass_episode {arc : ArcId} {task : ℕ} {nd : NetworkData} {id : Int32}
    {stage : HandlerStage} {out : List Output} (h : Pass arc task nd id stage out) :
    stage.Kept ∧ ∃ evs ep, (startEpisode nd id).replay (.started :: evs) = some (ep, requests out) ∧
      stage.Shows ep := by
  induction h with
  | @granted token s stage out hid h =>
      cases h
      subst hid
      exact ⟨rfl, [], _, rfl, rfl⟩
  | @turn token s wake cs c stage out out' hpass h ih =>
      obtain ⟨hkept, evs, ep, hrun, hshows⟩ := ih
      have hturn : CommitTurn arc s c cs wake (stage, out') := commit_turn h
      obtain ⟨evs', ep', hrun', hshows'⟩ := commit_episode hkept hturn
      have hep : c.episode cs = ep := hshows
      rw [hep] at hrun'
      refine ⟨kept_commit hkept hturn, evs ++ evs', ep', ?_, hshows'⟩
      rw [requests_append]
      exact replay_append hrun hrun'

lemma soleView_ne_nil : ([4] : List UInt32) ≠ [] := by simp

lemma soleView_pos : ∀ g ∈ ([4] : List UInt32), 0 < g.toNat := by simp

/-- A node alone in network 1. -/
def soleView : QspnView where
  topology := ⟨[4], soleView_ne_nil, soleView_pos⟩
  networkId := 1
  myPos _ := 0
  myEldership _ := 0
  subnetlevel := 0
  epsilon _ := 1
  eldership _ _ := 0
  adjacentToMyGnode _ _ := []
  isBootstrapped := true

/-- What its handlers read. -/
def soleSight : Sight := ⟨soleView, 1, 7⟩

/-- Network 2, of a hundred nodes. -/
def crowd : NetworkData := ⟨2, 100, 0, [4], [1]⟩

/-- The place it gives. -/
def crowdEntry : EntryData := ⟨2, [3], [5]⟩

lemma Pass.next {arc : ArcId} {task : ℕ} {nd : NetworkData} {id : Int32} {cs : CommitStage}
    {c : Commit} {out : List Output} (h : Pass arc task nd id (.committing cs c) out) (s : Sight)
    (wake : Wake) {r : HandlerStage × List Output}
    (hr : (HandlerStage.committing cs c).resume arc task false s wake = some r) :
    Pass arc task nd id r.1 (out ++ r.2) :=
  .turn h hr

/-- A pass that asks twice, finds no path to a place of level 1, and enters alone. -/
theorem pass_episode_crowd : ∃ out evs ep, Pass ⟨0⟩ 0 crowd 7 .over out ∧
    (startEpisode crowd 7).replay (.started :: evs) = some (ep, requests out) ∧
      ep.stage = .over := by
  have hgranted : Pass ⟨0⟩ 0 crowd 7 (.committing .evaluating ⟨crowd, 7, 0, 0, 0, none⟩)
      [phase ⟨0⟩ .evaluating, .ask .evaluate] :=
    @Pass.granted _ _ _ _ false soleSight _ _ rfl rfl
  have hbegun := ((hgranted.next soleSight (.evaluated (.error .askAgain)) rfl).next soleSight
    .slept rfl).next soleSight (.evaluated (.ok 1)) rfl
  have hlower := ((hbegun.next soleSight (.begun (.ok ())) rfl).next soleSight
    (.searched (.error (.remote .noMigrationPathFound))) rfl).next soleSight (.released true) rfl
  have hfound := (hlower.next soleSight (.begun (.ok ())) rfl).next soleSight
    (.searched (.ok crowdEntry)) rfl
  have hover := ((hfound.next soleSight (.released true) rfl).next soleSight .told rfl).next
    soleSight .told rfl
  obtain ⟨-, evs, ep, hrun, hshows⟩ := pass_episode hover
  exact ⟨_, evs, ep, hover, hrun, hshows⟩

end Netsukuku.Hooking
