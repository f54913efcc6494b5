import Mathlib
import Netsukuku.Hooking.Arbiter

/-!
# The verdict on a merge

Two networks that meet decide which of them moves into the other.  A member asks for the verdict
about a neighbour network; it is taken from the member's own cache, else from the hooking memory,
else worked out from the sizes of the two networks and written back.

* `mergeTiebreak` — the verdict from two sizes.
* `MergeWorld.next` — the steps of any number of calls of `decide_merge`, interleaved, and copies of
  the memory that come back.
* `Careful` — when a step keeps to the life of a verdict.
* `verdict_fresh` — a verdict given along careful steps comes from sizes taken for the same two
  networks, no longer ago than a verdict lives.

Times are nanoseconds; the memory has whole milliseconds.
-/

namespace Netsukuku.Hooking

/-- `MergeArbitrationRequest`. -/
structure MergeArbitrationRequest where
  myNetworkId : Int64
  neighborNetworkId : Int64
  neighborNNodes : ℕ
  deriving DecidableEq, Repr

/-- `merge_tiebreak`. -/
def mergeTiebreak (myNNodes neighborNNodes : ℕ) (myNetworkId neighborNetworkId : Int64) : Bool :=
  if neighborNNodes > myNNodes then true
  else decide (neighborNNodes = myNNodes) && decide (neighborNetworkId > myNetworkId)

/-- Where a call of `decide_merge` is: it waits for the memory, or for the size of its own network,
or for the write, or is about to return.  A verdict that was found in the memory is returned with
the time it had there. -/
inductive MergeStage where
  | reading
  | sampling (mem : HookingMemory)
  | writing (mem : HookingMemory) (decision : Bool)
  | returning (decision : Bool) (stamp : Option ℕ)

/-- A call that has not returned, with its two readings of the clock: for the cache, and then for the
memory. -/
structure MergeCall (ν : Type) where
  member : ν
  req : MergeArbitrationRequest
  now : ℕ
  wall : ℕ
  stage : MergeStage

/-- Two sizes a verdict was worked out from: the neighbour's was there with the request when the time
for the memory was read, the own one was asked for later. -/
structure Sample where
  req : MergeArbitrationRequest
  askedAt : ℕ
  myNNodes : ℕ
  sampledAt : ℕ
  deriving DecidableEq, Repr

/-- A verdict that was returned. -/
structure Verdict where
  req : MergeArbitrationRequest
  decision : Bool
  returnedAt : ℕ
  deriving DecidableEq, Repr

/-- The members around one hooking memory, with the copies of it that were sent to replicas.  Besides
the state of the code: the requests and the samples so far, and for a cached verdict that was found
in the memory the time it had there. -/
structure MergeWorld (ν : Type) where
  clock : ℕ
  memory : Option HookingMemory
  sent : List HookingMemory
  caches : ν → KeyedMap Int64 (Bool × ℕ)
  calls : List (MergeCall ν)
  asked : List (MergeArbitrationRequest × ℕ)
  samples : List Sample
  adopted : ν → Int64 → Option ℕ

/-- A step, at a time of the clock.  Requests to the memory may fail, and copies of it come back. -/
inductive MergeAction (ν : Type) where
  | ask (member : ν) (req : MergeArbitrationRequest) (t wall : ℕ)
  | read (i t : ℕ) (ok : Bool)
  | sample (i t myNNodes : ℕ)
  | write (i t : ℕ) (ok : Bool)
  | finish (i t : ℕ)
  | replica (i t : ℕ)

/-- The time of a step. -/
def MergeAction.time {ν : Type} : MergeAction ν → ℕ
  | .ask _ _ t _ => t
  | .read _ t _ => t
  | .sample _ t _ => t
  | .write _ t _ => t
  | .finish _ t => t
  | .replica _ t => t

/-- The place of the call that a step is one of. -/
def MergeAction.place {ν : Type} : MergeAction ν → Option ℕ
  | .ask .. => none
  | .replica .. => none
  | .read i _ _ => some i
  | .sample i _ _ => some i
  | .write i _ _ => some i
  | .finish i _ => some i

/-- The verdicts of a memory that are younger than `ttl`. -/
def HookingMemory.pruned (mem : HookingMemory) (ttl nowMs : ℕ) : HookingMemory :=
  { mem with mergeDecisions := mem.mergeDecisions.filterMapValues fun v =>
      if nowMs - v.2 < ttl / 1000000 then some v else none }

/-- The verdict from the size of the own network. -/
def MergeCall.tiebreak {ν : Type} (c : MergeCall ν) (myNNodes : ℕ) : Bool :=
  mergeTiebreak myNNodes c.req.neighborNNodes c.req.myNetworkId c.req.neighborNetworkId

/-- The memory with the call's own verdict, to be written. -/
def MergeCall.record {ν : Type} (c : MergeCall ν) (mem : HookingMemory) (decision : Bool) : HookingMemory :=
  { mem with mergeDecisions :=
      mem.mergeDecisions.insert c.req.neighborNetworkId (decision, nowMillis c.wall) }

namespace MergeWorld

variable {ν : Type} [DecidableEq ν]

/-- A call starts: a cached verdict younger than `ttl` is returned at once. -/
def ask (w : MergeWorld ν) (ttl : ℕ) (member : ν) (req : MergeArbitrationRequest)
    (now wall : ℕ) : MergeWorld ν × Option Verdict :=
  let w := { w with clock := wall, asked := (req, wall) :: w.asked }
  match (w.caches member).get? req.neighborNetworkId with
  | some (cached, decidedAt) =>
      if now - decidedAt < ttl then (w, some ⟨req, cached, now⟩)
      else ({ w with calls := w.calls ++ [⟨member, req, now, wall, .reading⟩] }, none)
  | none => ({ w with calls := w.calls ++ [⟨member, req, now, wall, .reading⟩] }, none)

/-- The memory was read: a verdict in it is taken over. -/
def afterRead (ttl : ℕ) (c : MergeCall ν) (memory : HookingMemory) : MergeStage :=
  let mem := memory.pruned ttl (nowMillis c.wall)
  match mem.mergeDecisions.get? c.req.neighborNetworkId with
  | some (decision, decidedAt) => .returning decision (some decidedAt)
  | none => .sampling mem

/-- The memory is written, and replicated, unless the request fails. -/
def store (w : MergeWorld ν) (ok : Bool) (mem : HookingMemory) : MergeWorld ν :=
  { w with
    memory := if ok then some mem else w.memory
    sent := if ok then mem :: w.sent else w.sent }

/-- The call at place `i` is at another stage. -/
def setStage (w : MergeWorld ν) (i t : ℕ) (c : MergeCall ν) (stage : MergeStage) : MergeWorld ν :=
  { w with clock := t, calls := w.calls.set i { c with stage := stage } }

/-- The call at place `i` returns, and its verdict is cached with the call's reading of the
clock. -/
def finish (w : MergeWorld ν) (i t : ℕ) (c : MergeCall ν) (decision : Bool) (stamp : Option ℕ) :
    MergeWorld ν :=
  { w with
    clock := t
    calls := w.calls.eraseIdx i
    caches := Function.update w.caches c.member
      ((w.caches c.member).insert c.req.neighborNetworkId (decision, c.now))
    adopted := Function.update w.adopted c.member
      (Function.update (w.adopted c.member) c.req.neighborNetworkId stamp) }

/-- A step of the call at place `i`. -/
def nextCall (w : MergeWorld ν) (ttl : ℕ) (c : MergeCall ν) :
    MergeAction ν → Option (MergeWorld ν × Option Verdict)
  | .ask .. => none
  | .replica .. => none
  | .read i t ok =>
      match c.stage with
      | .reading =>
          let memory := if ok then w.memory.getD HookingMemory.default else HookingMemory.default
          some (w.setStage i t c (afterRead ttl c memory), none)
      | _ => none
  | .sample i t myNNodes =>
      match c.stage with
      | .sampling mem =>
          let decision := c.tiebreak myNNodes
          let w := { w with samples := ⟨c.req, c.wall, myNNodes, t⟩ :: w.samples }
          some (w.setStage i t c (.writing (c.record mem decision) decision), none)
      | _ => none
  | .write i t ok =>
      match c.stage with
      | .writing mem decision =>
          let w := w.store ok mem
          some (w.setStage i t c (.returning decision none), none)
      | _ => none
  | .finish i t =>
      match c.stage with
      | .returning decision stamp =>
          some (w.finish i t c decision stamp, some ⟨c.req, decision, t⟩)
      | _ => none

/-- One step; `none` if it cannot be taken. -/
def next (w : MergeWorld ν) (ttl : ℕ) (a : MergeAction ν) :
    Option (MergeWorld ν × Option Verdict) :=
  if a.time < w.clock then none
  else
    match a with
    | .ask member req t wall => if wall < t then none else some (w.ask ttl member req t wall)
    | .replica i t => (w.sent[i]?).map fun mem => ({ w with clock := t, memory := some mem }, none)
    | a => (a.place.bind (w.calls[·]?)).bind (w.nextCall ttl · a)

/-- Nobody has asked yet. -/
def initial : MergeWorld ν := ⟨0, none, [], fun _ => KeyedMap.empty, [], [], [], fun _ _ => none⟩

end MergeWorld

/-- A verdict comes from sizes that were taken for the same two networks no earlier than `ttl`
before it was returned. -/
def FromSample (samples : List Sample) (ttl : ℕ) (v : Verdict) : Prop :=
  ∃ σ ∈ samples, σ.req.myNetworkId = v.req.myNetworkId ∧
    σ.req.neighborNetworkId = v.req.neighborNetworkId ∧
    v.decision = mergeTiebreak σ.myNNodes σ.req.neighborNNodes v.req.myNetworkId
      v.req.neighborNetworkId ∧
    v.returnedAt ≤ σ.askedAt + ttl ∧ v.returnedAt ≤ σ.sampledAt + ttl

/-- A time of the memory is younger than `ttl`, by the check of the code. -/
def YoungStamp (ttl t stamp : ℕ) : Prop := nowMillis t - stamp < ttl / 1000000

instance {ttl t stamp : ℕ} : Decidable (YoungStamp ttl t stamp) :=
  inferInstanceAs (Decidable (nowMillis t - stamp < ttl / 1000000))

/-- Requests about one neighbour under different own ids are `ttl` apart, a call is over before `ttl`
is, and a verdict taken over from the memory is returned, then and later from the cache, only while
the time it had there is young. -/
structure Careful {ν : Type} (ttl : ℕ) (w : MergeWorld ν) (a : MergeAction ν) : Prop where
  apart : ∀ p req t wall, a = .ask p req t wall → ∀ r u, (r, u) ∈ w.asked →
    r.neighborNetworkId = req.neighborNetworkId → r.myNetworkId ≠ req.myNetworkId → u + ttl ≤ t
  short : ∀ i c, a.place = some i → w.calls[i]? = some c → a.time < c.now + ttl
  returned : ∀ i t, a = .finish i t → ∀ c decision stamp, w.calls[i]? = some c →
    c.stage = .returning decision (some stamp) → YoungStamp ttl t stamp
  cached : ∀ p req t wall, a = .ask p req t wall → ∀ decision u stamp,
    (w.caches p).get? req.neighborNetworkId = some (decision, u) → t - u < ttl →
    w.adopted p req.neighborNetworkId = some stamp → YoungStamp ttl t stamp

/-- A run, whatever its steps. -/
def MergeRun {ν : Type} [DecidableEq ν] (ttl : ℕ) : MergeWorld ν → MergeWorld ν → Prop :=
  Relation.ReflTransGen fun w w' => ∃ a v, w.next ttl a = some (w', v)

/-- A run all of whose steps are careful. -/
def CarefulRun {ν : Type} [DecidableEq ν] (ttl : ℕ) : MergeWorld ν → MergeWorld ν → Prop :=
  Relation.ReflTransGen fun w w' => ∃ a v, Careful ttl w a ∧ w.next ttl a = some (w', v)

/-! ## What a verdict rests on -/

/-- A verdict about `req`, asked for at `u`, rests on a sample for the same networks: its own one, or
the one whose time in the memory is `stamp`. -/
def Grounded (samples : List Sample) (req : MergeArbitrationRequest) (u : ℕ) (decision : Bool)
    (stamp : Option ℕ) : Prop :=
  ∃ σ ∈ samples, σ.req.myNetworkId = req.myNetworkId ∧
    σ.req.neighborNetworkId = req.neighborNetworkId ∧
    decision = mergeTiebreak σ.myNNodes σ.req.neighborNNodes req.myNetworkId
      req.neighborNetworkId ∧
    (stamp = none → σ.askedAt = u) ∧ ∀ s, stamp = some s → s = nowMillis σ.askedAt

/-- Every verdict in a memory rests on a sample that was asked for at the time it has there. -/
def Truthful (samples : List Sample) (mem : HookingMemory) : Prop :=
  ∀ neighbor decision s, mem.mergeDecisions.get? neighbor = some (decision, s) →
    ∃ σ ∈ samples, σ.req.neighborNetworkId = neighbor ∧ s = nowMillis σ.askedAt ∧
      decision = mergeTiebreak σ.myNNodes σ.req.neighborNNodes σ.req.myNetworkId neighbor

/-- What a call holds rests on samples. -/
def StageOk (samples : List Sample) (req : MergeArbitrationRequest) (now : ℕ) : MergeStage → Prop
  | .reading => True
  | .sampling mem => Truthful samples mem
  | .writing mem decision => Truthful samples mem ∧ Grounded samples req now decision none
  | .returning decision stamp => Grounded samples req now decision stamp

/-- The state of the calls, caches and memory against what was asked and sampled. -/
structure MergeInv {ν : Type} (ttl : ℕ) (w : MergeWorld ν) : Prop where
  apart : ∀ r u r' u', (r, u) ∈ w.asked → (r', u') ∈ w.asked →
    r.neighborNetworkId = r'.neighborNetworkId → r.myNetworkId ≠ r'.myNetworkId → u ≤ u' →
    u + ttl ≤ u'
  past : ∀ r u, (r, u) ∈ w.asked → u ≤ w.clock
  sampled : ∀ σ ∈ w.samples, (σ.req, σ.askedAt) ∈ w.asked ∧ σ.askedAt ≤ σ.sampledAt
  memory : ∀ mem, w.memory = some mem → Truthful w.samples mem
  sent : ∀ mem ∈ w.sent, Truthful w.samples mem
  calls : ∀ c ∈ w.calls, (c.req, c.wall) ∈ w.asked ∧ c.now ≤ c.wall ∧
    StageOk w.samples c.req c.wall c.stage
  caches : ∀ p neighbor decision u, (w.caches p).get? neighbor = some (decision, u) →
    ∃ r wall, (r, wall) ∈ w.asked ∧ u ≤ wall ∧ r.neighborNetworkId = neighbor ∧
      Grounded w.samples r wall decision (w.adopted p neighbor)

/-- A time of the memory that is young is less than `ttl` ago; the milliseconds err on the safe
side. -/
lemma YoungStamp.lt {ttl t u : ℕ} (h : YoungStamp ttl t (nowMillis u)) : t < u + ttl := by
  unfold YoungStamp nowMillis at h
  omega

section Samples

variable {samples samples' : List Sample} {req : MergeArbitrationRequest} {u ttl nowMs : ℕ}
  {decision : Bool} {stamp : Option ℕ} {mem : HookingMemory} {stage : MergeStage}

lemma Grounded.mono (hsub : samples ⊆ samples') (h : Grounded samples req u decision stamp) :
    Grounded samples' req u decision stamp := by
  obtain ⟨σ, hσ, hrest⟩ := h
  exact ⟨σ, hsub hσ, hrest⟩

lemma Truthful.mono (hsub : samples ⊆ samples') (h : Truthful samples mem) :
    Truthful samples' mem := by
  intro neighbor decision s hget
  obtain ⟨σ, hσ, hrest⟩ := h neighbor decision s hget
  exact ⟨σ, hsub hσ, hrest⟩

lemma StageOk.mono (hsub : samples ⊆ samples') (h : StageOk samples req u stage) :
    StageOk samples' req u stage := by
  cases stage with
  | reading => trivial
  | sampling mem => exact Truthful.mono hsub h
  | writing mem decision => exact ⟨h.1.mono hsub, h.2.mono hsub⟩
  | returning decision stamp => exact Grounded.mono hsub h

lemma truthful_default : Truthful samples HookingMemory.default := by
  intro neighbor decision s hget
  cases hget

/-- What is left of a memory was in it, and is young. -/
lemma pruned_get? {neighbor : Int64} {s : ℕ}
    (h : (mem.pruned ttl nowMs).mergeDecisions.get? neighbor = some (decision, s)) :
    mem.mergeDecisions.get? neighbor = some (decision, s) ∧ nowMs - s < ttl / 1000000 := by
  rw [HookingMemory.pruned, KeyedMap.get?_filterMapValues] at h
  obtain ⟨v, hv, hyoung⟩ := Option.bind_eq_some_iff.mp h
  split_ifs at hyoung with hlt
  cases hyoung
  exact ⟨hv, hlt⟩

lemma Truthful.pruned (h : Truthful samples mem) : Truthful samples (mem.pruned ttl nowMs) :=
  fun neighbor decision s hget => h neighbor decision s (pruned_get? hget).1

end Samples

section Run

variable {ν : Type} {ttl : ℕ} {w w' : MergeWorld ν} {c : MergeCall ν} {i t : ℕ}

/-- A verdict found in the memory is about the same two networks: a sample for another own id would
have been asked for too long ago, or only after the call was over. -/
lemma afterRead_ok {memory : HookingMemory} (h : MergeInv ttl w) (hc : c ∈ w.calls)
    (hmem : Truthful w.samples memory) (hclock : w.clock ≤ t) (ht : t < c.now + ttl) :
    StageOk w.samples c.req c.wall (MergeWorld.afterRead ttl c memory) := by
  unfold MergeWorld.afterRead
  simp only
  split
  · rename_i decision s hget
    obtain ⟨hin, hyoung⟩ := pruned_get? hget
    obtain ⟨σ, hσ, hneighbor, rfl, hdecision⟩ := hmem _ _ _ hin
    have hasked := (h.sampled σ hσ).1
    obtain ⟨hcall, hwall, -⟩ := h.calls c hc
    have hmy : σ.req.myNetworkId = c.req.myNetworkId := by
      by_contra hne
      rcases le_total σ.askedAt c.wall with hle | hle
      · have hapart := h.apart _ _ _ _ hasked hcall hneighbor hne hle
        have hlt := YoungStamp.lt hyoung
        omega
      · have hapart := h.apart _ _ _ _ hcall hasked hneighbor.symm (Ne.symm hne) hle
        have hpast := h.past _ _ hasked
        omega
    exact ⟨σ, hσ, hmy, hneighbor, by rw [hdecision, hmy], by simp, by simp⟩
  · exact hmem.pruned

/-- The call at place `i` goes to a stage that is in order. -/
lemma setStage_inv {stage : MergeStage} (h : MergeInv ttl w) (hc : c ∈ w.calls)
    (hclock : w.clock ≤ t) (hstage : StageOk w.samples c.req c.wall stage) :
    MergeInv ttl (w.setStage i t c stage) where
  apart := h.apart
  past := fun r u hr => (h.past r u hr).trans hclock
  sampled := h.sampled
  memory := h.memory
  sent := h.sent
  calls := by
    intro c' hc'
    rcases List.mem_or_eq_of_mem_set hc' with hc' | rfl
    · exact h.calls c' hc'
    · exact ⟨(h.calls c hc).1, (h.calls c hc).2.1, hstage⟩
  caches := h.caches

/-- A sample is taken for a call. -/
lemma sample_inv {n : ℕ} (h : MergeInv ttl w) (hc : c ∈ w.calls) (hclock : w.clock ≤ t) :
    MergeInv ttl { w with samples := ⟨c.req, c.wall, n, t⟩ :: w.samples } where
  apart := h.apart
  past := h.past
  sampled := by
    intro σ hσ
    rcases List.mem_cons.mp hσ with rfl | hσ
    · have hasked := (h.calls c hc).1
      exact ⟨hasked, (h.past _ _ hasked).trans hclock⟩
    · exact h.sampled σ hσ
  memory := fun mem hmem => (h.memory mem hmem).mono (List.subset_cons_self _ _)
  sent := fun mem hmem => (h.sent mem hmem).mono (List.subset_cons_self _ _)
  calls := by
    intro c' hc'
    obtain ⟨hasked, hwall, hok⟩ := h.calls c' hc'
    exact ⟨hasked, hwall, hok.mono (List.subset_cons_self _ _)⟩
  caches := by
    intro p neighbor decision u hget
    obtain ⟨r, wall, hr, hwall, hneighbor, hground⟩ := h.caches p neighbor decision u hget
    exact ⟨r, wall, hr, hwall, hneighbor, hground.mono (List.subset_cons_self _ _)⟩

/-- The verdict of the new sample is recorded truthfully. -/
lemma record_ok {mem : HookingMemory} {n : ℕ} (hmem : Truthful w.samples mem) :
    StageOk (⟨c.req, c.wall, n, t⟩ :: w.samples) c.req c.wall
      (.writing (c.record mem (c.tiebreak n))
        (c.tiebreak n)) := by
  refine ⟨?_, ⟨c.req, c.wall, n, t⟩, List.mem_cons_self, rfl, rfl, rfl, fun _ => rfl, by simp⟩
  intro neighbor decision s hget
  by_cases hneighbor : neighbor = c.req.neighborNetworkId
  · subst hneighbor
    rw [MergeCall.record, KeyedMap.get?_insert_self] at hget
    cases hget
    exact ⟨⟨c.req, c.wall, n, t⟩, List.mem_cons_self, rfl, rfl, rfl⟩
  · rw [MergeCall.record, KeyedMap.get?_insert_of_ne _ _ hneighbor] at hget
    exact (hmem.mono (List.subset_cons_self _ _)) neighbor decision s hget

lemma store_inv {mem : HookingMemory} {ok : Bool} (h : MergeInv ttl w)
    (hmem : Truthful w.samples mem) : MergeInv ttl (w.store ok mem) :=
  { h with
    memory := by
      intro mem' hmem'
      cases ok with
      | false => exact h.memory mem' hmem'
      | true => exact Option.some.inj hmem' ▸ hmem
    sent := by
      intro mem' hmem'
      cases ok with
      | false => exact h.sent mem' hmem'
      | true =>
          rcases List.mem_cons.mp hmem' with rfl | hmem'
          · exact hmem
          · exact h.sent mem' hmem' }

/-- A copy comes back: what it says was true when it was sent. -/
lemma replica_inv {mem : HookingMemory} (h : MergeInv ttl w) (hclock : w.clock ≤ t)
    (hmem : mem ∈ w.sent) : MergeInv ttl { w with clock := t, memory := some mem } :=
  { h with
    past := fun r u hr => (h.past r u hr).trans hclock
    memory := fun _ hmem' => Option.some.inj hmem' ▸ h.sent mem hmem }

lemma ask_inv {p : ν} {req : MergeArbitrationRequest} {wall : ℕ} (h : MergeInv ttl w)
    (hclock : w.clock ≤ t) (hwall : t ≤ wall)
    (hapart : ∀ r u, (r, u) ∈ w.asked → r.neighborNetworkId = req.neighborNetworkId →
      r.myNetworkId ≠ req.myNetworkId → u + ttl ≤ t) :
    MergeInv ttl (w.ask ttl p req t wall).1 := by
  have hasked : MergeInv ttl { w with clock := wall, asked := (req, wall) :: w.asked } :=
    { apart := by
        intro r u r' u' hr hr' hneighbor hmy hle
        rcases List.mem_cons.mp hr with heq | hr
        · cases heq
          rcases List.mem_cons.mp hr' with heq' | hr'
          · cases heq'
            exact absurd rfl hmy
          · have hlate := hapart r' u' hr' hneighbor.symm (Ne.symm hmy)
            omega
        · rcases List.mem_cons.mp hr' with heq' | hr'
          · cases heq'
            have hlate := hapart r u hr hneighbor hmy
            omega
          · exact h.apart r u r' u' hr hr' hneighbor hmy hle
      past := by
        intro r u hr
        rcases List.mem_cons.mp hr with heq | hr
        · cases heq
          exact le_refl _
        · exact ((h.past r u hr).trans hclock).trans hwall
      sampled := fun σ hσ => ⟨List.mem_cons_of_mem _ (h.sampled σ hσ).1, (h.sampled σ hσ).2⟩
      memory := h.memory
      sent := h.sent
      calls := fun c hc => ⟨List.mem_cons_of_mem _ (h.calls c hc).1, (h.calls c hc).2⟩
      caches := by
        intro q neighbor decision u hget
        obtain ⟨r, wall', hr, hrest⟩ := h.caches q neighbor decision u hget
        exact ⟨r, wall', List.mem_cons_of_mem _ hr, hrest⟩ }
  have hcall : MergeInv ttl { w with
      clock := wall
      asked := (req, wall) :: w.asked
      calls := w.calls ++ [⟨p, req, t, wall, .reading⟩] } :=
    { hasked with
      calls := by
        intro c hc
        rcases List.mem_append.mp hc with hc | hc
        · exact hasked.calls c hc
        · rw [List.mem_singleton.mp hc]
          exact ⟨List.mem_cons_self, hwall, trivial⟩ }
  unfold MergeWorld.ask
  simp only
  split
  · split_ifs
    · exact hasked
    · exact hcall
  · exact hcall

lemma initial_inv : MergeInv ttl (MergeWorld.initial : MergeWorld ν) := by
  constructor <;> simp [MergeWorld.initial]

/-- A verdict that rests on a sample is fresh as long as the call, or its time in the memory, is
young. -/
lemma Grounded.fromSample {req : MergeArbitrationRequest} {u : ℕ} {decision : Bool}
    {stamp : Option ℕ} (h : MergeInv ttl w) (hground : Grounded w.samples req u decision stamp)
    (hown : t ≤ u + ttl) (hstamp : ∀ s, stamp = some s → YoungStamp ttl t s) :
    FromSample w.samples ttl ⟨req, decision, t⟩ := by
  obtain ⟨σ, hσ, hmy, hneighbor, hdecision, hnone, hsome⟩ := hground
  have hle := (h.sampled σ hσ).2
  have hfresh : t ≤ σ.askedAt + ttl := by
    cases stamp with
    | none =>
        rw [hnone rfl]
        exact hown
    | some s =>
        have hyoung := hstamp s rfl
        rw [hsome s rfl] at hyoung
        exact hyoung.lt.le
  exact ⟨σ, hσ, hmy, hneighbor, hdecision, hfresh, by simp only; omega⟩

variable [DecidableEq ν]

lemma finish_inv {decision : Bool} {stamp : Option ℕ} (h : MergeInv ttl w) (hc : c ∈ w.calls)
    (hclock : w.clock ≤ t) (hstage : c.stage = .returning decision stamp) :
    MergeInv ttl (w.finish i t c decision stamp) where
  apart := h.apart
  past := fun r u hr => (h.past r u hr).trans hclock
  sampled := h.sampled
  memory := h.memory
  sent := h.sent
  calls := fun c' hc' => h.calls c' (List.mem_of_mem_eraseIdx hc')
  caches := by
    obtain ⟨hasked, hwall, hok⟩ := h.calls c hc
    rw [hstage] at hok
    intro p neighbor d u hget
    simp only [MergeWorld.finish] at hget ⊢
    by_cases hp : p = c.member
    · subst hp
      rw [Function.update_self] at hget ⊢
      by_cases hneighbor : neighbor = c.req.neighborNetworkId
      · subst hneighbor
        rw [KeyedMap.get?_insert_self] at hget
        cases hget
        exact ⟨c.req, c.wall, hasked, hwall, rfl, by rw [Function.update_self]; exact hok⟩
      · rw [KeyedMap.get?_insert_of_ne _ _ hneighbor] at hget
        rw [Function.update_of_ne hneighbor]
        exact h.caches _ neighbor d u hget
    · rw [Function.update_of_ne hp] at hget ⊢
      exact h.caches p neighbor d u hget

/-- A step of a call: what it leads to. -/
lemma nextCall_inv {a : MergeAction ν} {v : Option Verdict} (h : MergeInv ttl w)
    (hc : c ∈ w.calls) (hclock : w.clock ≤ a.time)
    (htime : a.time < c.now + ttl)
    (hnext : w.nextCall ttl c a = some (w', v)) : MergeInv ttl w' := by
  obtain ⟨-, hwall, hok⟩ := h.calls c hc
  cases a with
  | ask p req t wall => cases hnext
  | replica i t => cases hnext
  | read i t ok =>
      simp only [MergeWorld.nextCall] at hnext
      split at hnext
      · cases hnext
        refine setStage_inv h hc hclock (afterRead_ok h hc ?_ hclock htime)
        split_ifs
        · cases hmem : w.memory with
          | none => exact truthful_default
          | some mem => exact h.memory mem hmem
        · exact truthful_default
      · cases hnext
  | sample i t n =>
      simp only [MergeWorld.nextCall] at hnext
      split at hnext
      · rename_i mem hstage
        cases hnext
        rw [hstage] at hok
        exact setStage_inv (sample_inv h hc hclock) hc hclock (record_ok hok)
      · cases hnext
  | write i t ok =>
      simp only [MergeWorld.nextCall] at hnext
      split at hnext
      · rename_i mem decision hstage
        cases hnext
        rw [hstage] at hok
        exact setStage_inv (store_inv h hok.1) hc hclock hok.2
      · cases hnext
  | finish i t =>
      simp only [MergeWorld.nextCall] at hnext
      split at hnext
      · rename_i decision stamp hstage
        cases hnext
        exact finish_inv h hc hclock hstage
      · cases hnext

/-- A step is a request, a copy that comes back, or one of a call. -/
lemma next_cases {a : MergeAction ν} {v : Option Verdict}
    (hnext : w.next ttl a = some (w', v)) : w.clock ≤ a.time ∧
      ((∃ p req t wall, a = .ask p req t wall ∧ t ≤ wall ∧ w.ask ttl p req t wall = (w', v)) ∨
        (∃ i t mem, a = .replica i t ∧ mem ∈ w.sent ∧
          ({ w with clock := t, memory := some mem }, none) = (w', v)) ∨
        ∃ i c, a.place = some i ∧ w.calls[i]? = some c ∧ w.nextCall ttl c a = some (w', v)) := by
  unfold MergeWorld.next at hnext
  split_ifs at hnext with hclock
  refine ⟨not_lt.mp hclock, ?_⟩
  split at hnext
  · rename_i p req t wall
    split_ifs at hnext with hwall
    exact Or.inl ⟨p, req, t, wall, rfl, not_lt.mp hwall, Option.some.inj hnext⟩
  · rename_i i t
    obtain ⟨mem, hget, heq⟩ := Option.map_eq_some_iff.mp hnext
    exact Or.inr (Or.inl ⟨i, t, mem, rfl, List.mem_of_getElem? hget, heq⟩)
  · obtain ⟨c, hget, hcall⟩ := Option.bind_eq_some_iff.mp hnext
    obtain ⟨i, hplace, hget⟩ := Option.bind_eq_some_iff.mp hget
    exact Or.inr (Or.inr ⟨i, c, hplace, hget, hcall⟩)

lemma next_inv {a : MergeAction ν} {v : Option Verdict} (h : MergeInv ttl w)
    (hcareful : Careful ttl w a) (hnext : w.next ttl a = some (w', v)) : MergeInv ttl w' := by
  obtain ⟨hclock, ⟨p, req, t, wall, rfl, hwall, hask⟩ | ⟨i, t, mem, rfl, hmem, heq⟩ |
    ⟨i, c, hplace, hget, hcall⟩⟩ := next_cases hnext
  · have hw : (w.ask ttl p req t wall).1 = w' := congrArg Prod.fst hask
    rw [← hw]
    exact ask_inv h hclock hwall (hcareful.apart p req t wall rfl)
  · cases heq
    exact replica_inv h hclock hmem
  · exact nextCall_inv h (List.mem_of_getElem? hget) hclock (hcareful.short i c hplace hget) hcall

lemma run_inv (hrun : CarefulRun ttl MergeWorld.initial w) : MergeInv ttl w := by
  induction hrun with
  | refl => exact initial_inv
  | tail _ hstep ih =>
      obtain ⟨a, v, hcareful, hnext⟩ := hstep
      exact next_inv ih hcareful hnext

/-- **A verdict is fresh, and about the networks it was asked for.**  Whatever the interleaving of
the members' calls, reads and writes, every verdict returned by a careful step of a careful run
comes from sizes taken for the same two networks, at most `ttl` before. -/
theorem verdict_fresh (ttl : ℕ) (w w' : MergeWorld ν) (a : MergeAction ν) (v : Verdict)
    (hrun : CarefulRun ttl MergeWorld.initial w) (hcareful : Careful ttl w a)
    (hnext : w.next ttl a = some (w', some v)) : FromSample w'.samples ttl v := by
  have h := run_inv hrun
  obtain ⟨-, ⟨p, req, t, wall, rfl, -, hask⟩ | ⟨i, t, mem, -, -, heq⟩ |
    ⟨i, c, hplace, hget, hcall⟩⟩ := next_cases hnext
  · -- From the cache: a request under another own id would be too close to this one.
    unfold MergeWorld.ask at hask
    simp only at hask
    split at hask
    · rename_i decision u hcache
      split_ifs at hask with hyoung
      · cases hask
        obtain ⟨r, wall', hr, hle, hneighbor, hground⟩ := h.caches p _ _ _ hcache
        have hmy : r.myNetworkId = req.myNetworkId := by
          by_contra hne
          have hapart := hcareful.apart p req t wall rfl r wall' hr hneighbor hne
          omega
        have hsame := hground.fromSample h (by omega : t ≤ wall' + ttl) fun s hs =>
          hcareful.cached p req t wall rfl decision u s hcache hyoung hs
        obtain ⟨σ, hσ, hσmy, hσn, hdecision, htimes⟩ := hsame
        simp only at hσmy hσn hdecision
        exact ⟨σ, hσ, hσmy.trans hmy, hσn.trans hneighbor, by rw [hdecision, hmy, hneighbor],
          htimes⟩
      · cases hask
    · cases hask
  · cases heq
  · -- A call returns.
    have hc := List.mem_of_getElem? hget
    obtain ⟨-, hwall, hok⟩ := h.calls c hc
    have hshort := hcareful.short i c hplace hget
    cases a with
    | ask p req t wall => cases hplace
    | replica i t => cases hplace
    | read j t ok =>
        simp only [MergeWorld.nextCall] at hcall
        split at hcall <;> cases hcall
    | sample j t n =>
        simp only [MergeWorld.nextCall] at hcall
        split at hcall <;> cases hcall
    | write j t ok =>
        simp only [MergeWorld.nextCall] at hcall
        split at hcall <;> cases hcall
    | finish j t =>
        simp only [MergeWorld.nextCall] at hcall
        split at hcall
        · rename_i decision stamp hstage
          cases hcall
          rw [hstage] at hok
          have hfrom : FromSample w.samples ttl ⟨c.req, decision, t⟩ := by
            refine hok.fromSample h (by simp only [MergeAction.time] at hshort; omega) ?_
            rintro s rfl
            obtain rfl := Option.some.inj hplace
            exact hcareful.returned j t rfl c decision s hget hstage
          exact hfrom
        · cases hcall

end Run

/-- A step of a call: a verdict taken over is returned while its time is young. -/
lemma careful_of_place {ν : Type} {ttl i : ℕ} {w : MergeWorld ν} {a : MergeAction ν}
    {c : MergeCall ν} (hplace : a.place = some i) (hget : w.calls[i]? = some c)
    (hshort : a.time < c.now + ttl)
    (hyoung : ∀ d s, c.stage = .returning d (some s) → YoungStamp ttl a.time s) :
    Careful ttl w a where
  apart := by
    rintro p req t wall rfl
    cases hplace
  short := by
    intro j c' hj hget'
    obtain rfl := Option.some.inj (hplace.symm.trans hj)
    obtain rfl := Option.some.inj (hget.symm.trans hget')
    exact hshort
  returned := by
    rintro j t rfl c' d s hget' hstage
    obtain rfl := Option.some.inj hplace
    obtain rfl := Option.some.inj (hget.symm.trans hget')
    exact hyoung d s hstage
  cached := by
    rintro p req t wall rfl
    cases hplace

/-- A request, where nobody has asked under another own id. -/
lemma careful_of_ask {ν : Type} {ttl t wall : ℕ} {w : MergeWorld ν} {p : ν}
    {req : MergeArbitrationRequest} (hsame : ∀ e ∈ w.asked, e.1.myNetworkId = req.myNetworkId)
    (hyoung : ∀ s, w.adopted p req.neighborNetworkId = some s → YoungStamp ttl t s) :
    Careful ttl w (.ask p req t wall) where
  apart := by
    rintro _ _ _ _ ⟨⟩ r u hr - hne
    exact absurd (hsame (r, u) hr) hne
  short := by
    rintro i c ⟨⟩
  returned := by
    rintro i t ⟨⟩
  cached := by
    rintro _ _ _ _ ⟨⟩ d u s - - hadopted
    exact hyoung s hadopted

lemma careful_of_replica {ν : Type} {ttl i t : ℕ} {w : MergeWorld ν} :
    Careful ttl w (.replica i t) where
  apart := by
    rintro p req t wall ⟨⟩
  short := by
    rintro i c ⟨⟩
  returned := by
    rintro i t ⟨⟩
  cached := by
    rintro p req t wall ⟨⟩

/-- Two seconds. -/
def mergeTtl : ℕ := 2000 * 1000000

/-- The times of a step in milliseconds. -/
def ms (n : ℕ) : ℕ := n * 1000000

/-- Two members of network 1 ask about network 5.  The first works the verdict out, and a copy of it
comes back; the second finds it in the memory, and then has it in its own cache. -/
theorem verdict_fresh_adopted : ∃ w w' : MergeWorld Bool,
    CarefulRun mergeTtl MergeWorld.initial w ∧ w.adopted true 5 = some 0 ∧
    w.next mergeTtl (.ask true ⟨1, 5, 4⟩ (ms 1200) (ms 1200)) =
      some (w', some ⟨⟨1, 5, 4⟩, true, ms 1200⟩) ∧
    FromSample w'.samples mergeTtl ⟨⟨1, 5, 4⟩, true, ms 1200⟩ := by
  have hfirst : CarefulRun mergeTtl (MergeWorld.initial : MergeWorld Bool) _ :=
    ((((Relation.ReflTransGen.refl.tail ⟨.ask false ⟨1, 5, 3⟩ 0 10, none,
      careful_of_ask (by decide) (by rintro s ⟨⟩), rfl⟩).tail
      ⟨.read 0 (ms 1) true, none, careful_of_place rfl rfl (by decide) (by rintro _ _ ⟨⟩), rfl⟩).tail
      ⟨.sample 0 (ms 2) 3, none, careful_of_place rfl rfl (by decide) (by rintro _ _ ⟨⟩),
        rfl⟩).tail
      ⟨.write 0 (ms 3) true, none, careful_of_place rfl rfl (by decide) (by rintro _ _ ⟨⟩),
        rfl⟩).tail
      ⟨.finish 0 (ms 4), _, careful_of_place rfl rfl (by decide) (by rintro _ _ ⟨⟩), rfl⟩
  have hrun : CarefulRun mergeTtl (MergeWorld.initial : MergeWorld Bool) _ :=
    (((hfirst.tail ⟨.replica 0 (ms 450), none, careful_of_replica, rfl⟩).tail
      ⟨.ask true ⟨1, 5, 3⟩ (ms 500) (ms 500), none,
        careful_of_ask (by decide) (by rintro s ⟨⟩), rfl⟩).tail
      ⟨.read 0 (ms 501) true, none, careful_of_place rfl rfl (by decide) (by rintro _ _ ⟨⟩),
        rfl⟩).tail
      ⟨.finish 0 (ms 502), _, careful_of_place rfl rfl (by decide)
        (by rintro _ _ ⟨⟩; decide), rfl⟩
  exact ⟨_, _, hrun, rfl, rfl, verdict_fresh mergeTtl _ _ (.ask true ⟨1, 5, 4⟩ (ms 1200) (ms 1200))
    _ hrun (careful_of_ask (by decide) (by rintro s ⟨⟩; decide)) rfl⟩

/-- A member of network 1 asks about network 5, of the same size, and is told to move there.  It has
moved to network 9 when it asks again, and is told the same, though of two networks of this size
the one with the lower id moves. -/
theorem not_verdict_fresh : ¬ ∀ (ttl : ℕ) (w w' : MergeWorld Unit) (a : MergeAction Unit)
    (v : Verdict), MergeRun ttl MergeWorld.initial w → w.next ttl a = some (w', some v) →
    ∃ σ ∈ w'.samples, v.decision = mergeTiebreak σ.myNNodes σ.req.neighborNNodes
      v.req.myNetworkId v.req.neighborNetworkId ∧
      v.returnedAt ≤ σ.askedAt + ttl ∧ v.returnedAt ≤ σ.sampledAt + ttl := by
  intro h
  have hrun : MergeRun mergeTtl (MergeWorld.initial : MergeWorld Unit) _ :=
    ((((Relation.ReflTransGen.refl.tail ⟨.ask () ⟨1, 5, 3⟩ 0 0, none, rfl⟩).tail
      ⟨.read 0 (ms 1) true, none, rfl⟩).tail ⟨.sample 0 (ms 2) 3, none, rfl⟩).tail
      ⟨.write 0 (ms 3) true, none, rfl⟩).tail
      ⟨.finish 0 (ms 4), some ⟨⟨1, 5, 3⟩, true, ms 4⟩, rfl⟩
  obtain ⟨σ, hσ, hdecision, -⟩ := h mergeTtl _ _ (.ask () ⟨9, 5, 3⟩ (ms 5) (ms 5))
    ⟨⟨9, 5, 3⟩, true, ms 5⟩ hrun rfl
  have honly : σ = ⟨⟨1, 5, 3⟩, 0, 3, ms 2⟩ := List.mem_singleton.mp hσ
  subst honly
  exact absurd hdecision (by decide)

end Netsukuku.Hooking
