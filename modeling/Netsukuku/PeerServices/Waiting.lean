import Mathlib
import Netsukuku.PeerServices.Attribution

/-!
# How long an attempt can be kept waiting

An event the loop of `contact_peer` only records, or drops, starts its timeout anew.  What the
actor lets through is bounded: a search only gets deeper, and the answers come after a respondant
is known.  A `get_request`, though, is let through as often as it comes.

* `WaitingAnswer.potential` — how many more events a search can bring without an end.
* `InStep` — the answers on the channel come after their respondant.
* `Held` — an attempt that has been opened and not left, with the events it has taken and the
  repeated requests the actor has accepted meanwhile.
* `events_le` — the events taken are at most the levels and the repeated requests.
-/

namespace Netsukuku

variable {V : Type}

namespace RouteEvent

/-- The respondant is named. -/
def isRespondant : RouteEvent V → Bool
  | .respondantNode _ => true
  | _ => false

/-- The event comes from a respondant. -/
def isAnswer : RouteEvent V → Bool
  | .response _ => true
  | .refuse _ => true
  | .redoFromStart => true
  | _ => false

/-- The event is recorded, or dropped. -/
def isProgress : RouteEvent V → Bool
  | .nextDestination _ => true
  | .respondantNode _ => true
  | _ => false

end RouteEvent

/-! ## The search -/

namespace WaitingAnswer

/-- How many more events a search can bring without an end. -/
def potential (wa : WaitingAnswer V) : ℕ :=
  wa.minTarget.level + wa.sent.countP RouteEvent.isProgress + wa.respondantNode.isNone.toNat

/-- A `get_request` the actor accepts although a respondant is recorded. -/
def repeated (wa : WaitingAnswer V) : PeerCall V → ℕ
  | .getRequest respondant =>
      if wa.minTarget.top = respondant.top ∧ wa.respondantNode.isSome then 1 else 0
  | _ => 0

/-- An event that ends the wait costs nothing. -/
lemma potential_sendIf (wa : WaitingAnswer V) (accepted : Bool) {e : RouteEvent V}
    (he : e.isProgress = false) : (wa.sendIf accepted e).potential = wa.potential := by
  cases accepted with
  | false => rfl
  | true => simp [sendIf, send, potential, he]

/-- **Only a repeated request raises the potential.** -/
lemma potential_answer (wa : WaitingAnswer V) (c : PeerCall V) :
    (wa.answer c).potential ≤ wa.potential + wa.repeated c := by
  cases c with
  | getRequest respondant =>
      simp only [answer, repeated]
      by_cases htop : wa.minTarget.top = respondant.top
      · cases hnode : wa.respondantNode with
        | none => simp [htop, hnode, send, potential, RouteEvent.isProgress, Nat.add_assoc]
        | some r => simp [htop, hnode, send, potential, RouteEvent.isProgress, Nat.add_assoc]
      · rw [if_neg htop]
        exact Nat.le_add_right _ _
  | setNextDestination tuple =>
      simp only [answer]
      split_ifs with hdeeper
      · have hlevel : tuple.level < wa.minTarget.level := by
          simp only [isDeeperOrEqual, if_true, Bool.and_eq_true, decide_eq_true_eq] at hdeeper
          exact hdeeper.2
        simp only [send, potential, List.countP_append, List.countP_singleton,
          RouteEvent.isProgress, if_true]
        omega
      · exact Nat.le_add_right _ _
  | setMissingOptionalMaps =>
      exact (potential_sendIf wa true (e := .missingOptionalMaps) rfl).le.trans
        (Nat.le_add_right _ _)
  | _ => exact (potential_sendIf wa _ (by rfl)).le.trans (Nat.le_add_right _ _)

end WaitingAnswer

/-! ## The channel -/

/-- Every answer comes after a respondant, if none is known yet. -/
def AnnouncedFirst : Bool → List (RouteEvent V) → Prop
  | _, [] => True
  | known, e :: rest =>
      (e.isAnswer = true → known = true) ∧ AnnouncedFirst (known || e.isRespondant) rest

lemma AnnouncedFirst.append {known : Bool} {sent : List (RouteEvent V)} {e : RouteEvent V}
    (h : AnnouncedFirst known sent)
    (he : e.isAnswer = true → known = true ∨ ∃ e' ∈ sent, e'.isRespondant = true) :
    AnnouncedFirst known (sent ++ [e]) := by
  induction sent generalizing known with
  | nil =>
      refine ⟨fun hanswer => (he hanswer).resolve_right ?_, trivial⟩
      rintro ⟨e', hmem, -⟩
      cases hmem
  | cons e₀ sent ih =>
      refine ⟨h.1, ih h.2 fun hanswer => ?_⟩
      rcases he hanswer with hknown | ⟨e', hmem, he'⟩
      · exact .inl (by rw [hknown, Bool.true_or])
      · rcases List.mem_cons.mp hmem with rfl | hmem
        · exact .inl (by rw [he', Bool.or_true])
        · exact .inr ⟨e', hmem, he'⟩

/-- The loop knows a respondant, or will before it sees an answer. -/
structure InStep (known : Bool) (wa : WaitingAnswer V) : Prop where
  announced : AnnouncedFirst known wa.sent
  recorded : wa.respondantNode.isSome = true →
    known = true ∨ ∃ e ∈ wa.sent, e.isRespondant = true

namespace InStep

variable {known : Bool} {wa : WaitingAnswer V}

lemma new (known : Bool) (minTarget : TupleGNode) (request : Option V) :
    InStep known (.new minTarget request) := ⟨trivial, fun h => by cases h⟩

/-- An event on a search with a respondant, or one that is no answer. -/
lemma send (h : InStep known wa) {wa' : WaitingAnswer V} {e : RouteEvent V}
    (hsent : wa'.sent = wa.sent ++ [e])
    (hanswer : e.isAnswer = true → wa.respondantNode.isSome = true)
    (hnode : wa'.respondantNode.isSome = true →
      wa.respondantNode.isSome = true ∨ e.isRespondant = true) : InStep known wa' where
  announced := by
    rw [hsent]
    exact h.announced.append fun he => h.recorded (hanswer he)
  recorded hsome := by
    rw [hsent]
    rcases hnode hsome with hbefore | he
    · rcases h.recorded hbefore with hknown | ⟨e', hmem, he'⟩
      · exact .inl hknown
      · exact .inr ⟨e', List.mem_append_left _ hmem, he'⟩
    · exact .inr ⟨e, by simp, he⟩

lemma sendIf (h : InStep known wa) (accepted : Bool) {e : RouteEvent V}
    (hanswer : accepted = true → e.isAnswer = true → wa.respondantNode.isSome = true) :
    InStep known (wa.sendIf accepted e) := by
  cases accepted with
  | false => exact h
  | true => exact h.send rfl (hanswer rfl) .inl

/-- **Whatever is reported**, an answer is let through only after a respondant. -/
lemma answer (h : InStep known wa) (c : PeerCall V) : InStep known (wa.answer c) := by
  have hmatches : ∀ respondant, wa.respondantMatches respondant = true →
      wa.respondantNode.isSome = true := by
    intro respondant hmatch
    obtain ⟨r, hr, -⟩ := names_of_respondantMatches hmatch
    rw [hr]
    rfl
  cases c with
  | getRequest respondant =>
      simp only [WaitingAnswer.answer]
      split_ifs
      · exact h.send rfl (fun he => by cases he) fun _ => .inr rfl
      · exact h
  | setNextDestination tuple =>
      simp only [WaitingAnswer.answer]
      split_ifs
      · exact h.send rfl (fun he => by cases he) .inl
      · exact h
  | setResponse response respondant => exact h.sendIf _ fun hmatch _ => hmatches respondant hmatch
  | setRefuseMessage refusal respondant =>
      exact h.sendIf _ fun hmatch _ => hmatches respondant hmatch
  | setRedoFromStart respondant => exact h.sendIf _ fun hmatch _ => hmatches respondant hmatch
  | setFailure tuple => exact h.sendIf _ fun _ he => by cases he
  | setNonParticipant tuple => exact h.sendIf _ fun _ he => by cases he
  | setMissingOptionalMaps => exact h.send rfl (fun he => by cases he) .inl

end InStep

/-- **An event that does not end the wait** is a deeper target or a respondant. -/
lemma receive_waiting {cfg : PeerConfig} {p : PeerState V} {call : ContactCall V} {a a' : Attempt}
    {wa : WaitingAnswer V} {e : RouteEvent V} {rest : List (RouteEvent V)}
    (h : InStep a.respondant.isSome wa) (hsent : wa.sent = e :: rest)
    (hreceive : a.receive cfg p call e = .ok (.waiting a')) :
    e.isProgress = true ∧ a'.forwarder = a.forwarder ∧
      InStep a'.respondant.isSome { wa with sent := rest } := by
  obtain ⟨hannounced, hrecorded⟩ := h
  rw [hsent] at hannounced hrecorded
  obtain ⟨hanswer, hrest⟩ := hannounced
  -- no answer is taken without a respondant
  have hleft : ∀ respondant', a'.respondant.isSome = respondant' →
      respondant' = (a.respondant.isSome || e.isRespondant) →
        InStep a'.respondant.isSome { wa with sent := rest } := by
    rintro _ rfl hsame
    refine ⟨hsame ▸ hrest, fun hsome => ?_⟩
    rcases hrecorded hsome with hknown | ⟨e', hmem, he'⟩
    · exact .inl (by rw [hsame, hknown, Bool.true_or])
    · rcases List.mem_cons.mp hmem with rfl | hmem
      · exact .inl (by rw [hsame, he', Bool.or_true])
      · exact .inr ⟨e', hmem, he'⟩
  cases e with
  | nextDestination tuple =>
      cases hreceive
      exact ⟨rfl, rfl, hleft _ rfl (by simp [RouteEvent.isRespondant])⟩
  | respondantNode n =>
      simp only [Attempt.receive] at hreceive
      cases hrespondant : a.respondant with
      | none =>
          rw [hrespondant] at hreceive
          obtain ⟨respondant, -, hok⟩ := Outcome.bind_eq_ok.mp hreceive
          cases hok
          exact ⟨rfl, rfl, hleft _ rfl (by simp [RouteEvent.isRespondant])⟩
      | some respondant =>
          rw [hrespondant] at hreceive
          cases hreceive
          exact ⟨rfl, rfl, hleft _ rfl (by simp [hrespondant])⟩
  | refuse refusal =>
      simp only [Attempt.receive] at hreceive
      cases hrespondant : a.respondant with
      | none =>
          rw [hrespondant] at hanswer
          cases hanswer rfl
      | some respondant =>
          rw [hrespondant] at hreceive
          obtain ⟨s, -, hok⟩ := Outcome.bind_eq_ok.mp hreceive
          cases hok
  | redoFromStart =>
      simp only [Attempt.receive] at hreceive
      cases hrespondant : a.respondant with
      | none =>
          rw [hrespondant] at hanswer
          cases hanswer rfl
      | some respondant =>
          rw [hrespondant] at hreceive
          cases hreceive
  | failure tuple =>
      obtain ⟨s, -, hok⟩ := Outcome.bind_eq_ok.mp hreceive
      cases hok
  | nonParticipant tuple =>
      obtain ⟨s, -, hok⟩ := Outcome.bind_eq_ok.mp hreceive
      cases hok
  | missingOptionalMaps => cases hreceive
  | response response =>
      obtain ⟨respondant, -, hok⟩ := Outcome.bind_eq_ok.mp hreceive
      cases hok

/-! ## An attempt -/

/-- A command the actor accepts although the search waited for has a respondant. -/
def Caller.repeated (k : Caller V) (msgId : Int32) : PeerCmd V → ℕ
  | .call other call =>
      if other = msgId then ((k.state.waiting.get? other).map (·.repeated call)).getD 0 else 0
  | _ => 0

/-- An attempt that has been opened under `msgId` and not left, before any of its timeouts: the
repeated requests accepted, and the events its loop has taken. -/
inductive Held (w : World V) (cfg : PeerConfig) (call : ContactCall V) (msgId : Int32) :
    ℕ → ℕ → Caller V → Prop
  | opened {k k' : Caller V} {s : Search} {a : Attempt} (hbefore : k.phase = .attempt s)
      (hstep : Caller.Step w cfg call k k') (hphase : k'.phase = .sending a)
      (hid : a.forwarder.msgId = msgId) : Held w cfg call msgId 0 0 k'
  | sent {repeats n : ℕ} {k : Caller V} {a : Attempt} (held : Held w cfg call msgId repeats n k)
      (hphase : k.phase = .sending a) :
      Held w cfg call msgId repeats n { k with phase := .waiting a }
  | command {repeats n : ℕ} {k : Caller V} (held : Held w cfg call msgId repeats n k)
      (c : PeerCmd V) (hc : w.command k c) (hforeign : k.Foreign c) :
      Held w cfg call msgId (repeats + k.repeated msgId c) n
        { k with state := k.state.handle c, accepted := k.accepted ++ acceptedBy k.state c }
  | registry {repeats n : ℕ} {k : Caller V} (held : Held w cfg call msgId repeats n k)
      (services : KeyedMap ServiceId Bool) (participantSet : KeyedMap ServiceId (List HCoord)) :
      Held w cfg call msgId repeats n
        { k with state := { k.state with services, participantSet } }
  | event {repeats n : ℕ} {k : Caller V} {a a' : Attempt} {wa : WaitingAnswer V} {e : RouteEvent V}
      {rest : List (RouteEvent V)} (held : Held w cfg call msgId repeats n k)
      (hphase : k.phase = .waiting a)
      (hwa : k.state.waiting.get? a.forwarder.msgId = some wa) (hsent : wa.sent = e :: rest)
      (hreceive : a.receive cfg k.state call e = .ok (.waiting a')) :
      Held w cfg call msgId repeats (n + 1)
        { k with
          state := { k.state with
            waiting := k.state.waiting.insert a.forwarder.msgId { wa with sent := rest } }
          phase := .waiting a' }

section Attempt

variable {w : World V} {cfg : PeerConfig} {call : ContactCall V} {msgId : Int32} {repeats n : ℕ}
  {k : Caller V}

/-- It is a run of the call beside the actor. -/
lemma Held.steps (held : Held w cfg call msgId repeats n k) :
    ∃ k₀ s, k₀.phase = .attempt s ∧ Relation.ReflTransGen (Caller.Step w cfg call) k₀ k := by
  induction held with
  | opened hbefore hstep => exact ⟨_, _, hbefore, .single hstep⟩
  | sent _ hphase ih =>
      obtain ⟨k₀, s, hbefore, hsteps⟩ := ih
      exact ⟨k₀, s, hbefore, hsteps.tail (.sent hphase)⟩
  | command _ c hc hforeign ih =>
      obtain ⟨k₀, s, hbefore, hsteps⟩ := ih
      exact ⟨k₀, s, hbefore, hsteps.tail (.command c hc hforeign)⟩
  | registry _ services participantSet ih =>
      obtain ⟨k₀, s, hbefore, hsteps⟩ := ih
      exact ⟨k₀, s, hbefore, hsteps.tail (.registry services participantSet)⟩
  | event _ hphase hwa hsent hreceive ih =>
      obtain ⟨k₀, s, hbefore, hsteps⟩ := ih
      exact ⟨k₀, s, hbefore, hsteps.tail (.receive hphase hwa hsent hreceive)⟩

/-- What is left to spend. -/
structure Budget (msgId : Int32) (repeats n : ℕ) (k : Caller V) (a : Attempt)
    (wa : WaitingAnswer V) : Prop where
  phase : k.phase = .sending a ∨ k.phase = .waiting a
  id : a.forwarder.msgId = msgId
  waiting : k.state.waiting.get? msgId = some wa
  inStep : InStep a.respondant.isSome wa
  spent : n + wa.potential ≤ k.state.topology.levels + repeats

lemma Budget.msgId_phase {a : Attempt} {wa : WaitingAnswer V}
    (h : Budget msgId repeats n k a wa) : k.phase.msgId = some msgId := by
  rcases h.phase with hphase | hphase <;> rw [hphase, ← h.id] <;> rfl

/-- The g-node a message is sent to is one of the topology. -/
lemma level_minTarget_lt {p : PeerState V} {s : Search} {x : HCoord} {a : Attempt}
    (h : openAttempt p call s x msgId = .ok a) : a.minTarget.level < p.topology.levels := by
  obtain ⟨_, -, h⟩ := Outcome.bind_eq_ok.mp h
  obtain ⟨_, -, h⟩ := Outcome.bind_eq_ok.mp h
  obtain ⟨_, -, h⟩ := Outcome.bind_eq_ok.mp h
  obtain ⟨_, -, h⟩ := Outcome.bind_eq_ok.mp h
  obtain ⟨_, -, h⟩ := Outcome.bind_eq_ok.mp h
  obtain ⟨minTarget, hmin, h⟩ := Outcome.bind_eq_ok.mp h
  cases h
  obtain ⟨_, -, hmin⟩ := Outcome.bind_eq_ok.mp hmin
  obtain ⟨above, -, hmin⟩ := Outcome.bind_eq_ok.mp hmin
  obtain ⟨htopology, -, hpos⟩ := TupleGNode.new_eq_ok.mp (Outcome.unwrap_eq_ok.mp hmin)
  obtain ⟨g, hg, -⟩ := minTarget.inRange 0 x.pos (by rw [hpos]; rfl)
  rw [Nat.add_zero, htopology] at hg
  exact (List.getElem?_eq_some_iff.mp hg).1

/-- Only one step opens an attempt. -/
lemma budget_opened {k k' : Caller V} {s : Search} {a : Attempt} (hbefore : k.phase = .attempt s)
    (hstep : Caller.Step w cfg call k k') (hphase : k'.phase = .sending a)
    (hid : a.forwarder.msgId = msgId) : ∃ wa, Budget msgId 0 0 k' a wa := by
  cases hstep with
  | command c hc hforeign =>
      rw [hbefore] at hphase
      cases hphase
  | registry services participantSet =>
      rw [hbefore] at hphase
      cases hphase
  | restart _ hstart => cases hphase
  | fail gnodeExists _ helect => cases hphase
  | myself gnodeExists outcome _ helect hserves hregistered hserved =>
      have hidle := idle_of_servedLocally hserved
      simp only at hphase
      rw [hphase] at hidle
      exact hidle.elim
  | forward gnodeExists other _ helect hfree hdraws hopen =>
      obtain rfl := Phase.sending.inj hphase
      obtain ⟨rfl, hrespondant⟩ := openAttempt_eq_ok hopen
      subst hid
      refine ⟨_, .inl rfl, rfl, KeyedMap.get?_insert_self _ _ _, .new _ _ _, ?_⟩
      have hlevel := level_minTarget_lt hopen
      rw [PeerState.handle_topology]
      simp only [WaitingAnswer.potential, WaitingAnswer.new, List.countP_nil, Option.isNone_none,
        Bool.toNat_true]
      omega
  | sent hsending =>
      rw [hbefore] at hsending
      cases hsending
  | notSent hsending =>
      rw [hbefore] at hsending
      cases hsending
  | receive hwaiting =>
      rw [hbefore] at hwaiting
      cases hwaiting
  | timeout hwaiting =>
      rw [hbefore] at hwaiting
      cases hwaiting

/-- **Every step pays for itself.** -/
lemma Held.budget (held : Held w cfg call msgId repeats n k) :
    ∃ a wa, Budget msgId repeats n k a wa := by
  induction held with
  | opened hbefore hstep hphase hid =>
      obtain ⟨wa, hbudget⟩ := budget_opened hbefore hstep hphase hid
      exact ⟨_, wa, hbudget⟩
  | @sent _ _ _ a _ hphase ih =>
      obtain ⟨a', wa, hbudget⟩ := ih
      have hsame : a' = a := by
        rcases hbudget.phase with h | h <;> rw [hphase] at h <;> cases h
        rfl
      subst hsame
      exact ⟨a', wa, .inr rfl, hbudget.id, hbudget.waiting, hbudget.inStep, hbudget.spent⟩
  | @command repeats n k _ c _ hforeign ih =>
      obtain ⟨a, wa, hbudget⟩ := ih
      obtain ⟨wa', hwa', hanswer⟩ := Caller.pending_handle hbudget.msgId_phase hbudget.waiting
        hforeign
      have hspent := hbudget.spent
      refine ⟨a, wa', hbudget.phase, hbudget.id, hwa', ?_, ?_⟩
      · rcases hanswer with rfl | ⟨c', -, rfl⟩
        · exact hbudget.inStep
        · exact hbudget.inStep.answer c'
      · rw [PeerState.handle_topology]
        rcases hanswer with rfl | ⟨c', rfl, rfl⟩
        · omega
        · have hanswered := wa.potential_answer c'
          simp only [Caller.repeated, if_true, hbudget.waiting, Option.map_some,
            Option.getD_some]
          omega
  | registry _ _ _ ih =>
      obtain ⟨a, wa, hphase, hid, hwa, hinStep, hspent⟩ := ih
      exact ⟨a, wa, hphase, hid, hwa, hinStep, hspent⟩
  | @event _ _ _ a a' wa e rest _ hphase hwa hsent hreceive ih =>
      obtain ⟨a₀, wa₀, hbudget⟩ := ih
      have hsame : a₀ = a := by
        rcases hbudget.phase with h | h <;> rw [hphase] at h <;> cases h
        rfl
      subst hsame
      obtain rfl : wa₀ = wa := Option.some.inj (hbudget.waiting.symm.trans (hbudget.id ▸ hwa))
      obtain ⟨hprogress, hforwarder, hinStep⟩ := receive_waiting hbudget.inStep hsent hreceive
      refine ⟨a', _, .inr rfl, by rw [hforwarder, hbudget.id], ?_, hinStep, ?_⟩
      · rw [hbudget.id]
        exact KeyedMap.get?_insert_self _ _ _
      · have hspent := hbudget.spent
        simp only [WaitingAnswer.potential, hsent, List.countP_cons, hprogress, if_true] at hspent ⊢
        omega

end Attempt

/-- **An attempt takes at most as many events as there are levels**, and one for every request
that is repeated once a respondant is recorded, before it leaves its loop. -/
theorem events_le {w : World V} {cfg : PeerConfig} {call : ContactCall V} {msgId : Int32}
    {repeats n : ℕ} {k : Caller V} (held : Held w cfg call msgId repeats n k) :
    n ≤ k.state.topology.levels + repeats := by
  obtain ⟨a, wa, hbudget⟩ := held.budget
  exact (Nat.le_add_right _ _).trans hbudget.spent

/-! ## One servant that asks again and again -/

/-- The node of the ring, at the head of its first attempt. -/
def ringAttempt : Caller ℕ := { ringCaller with phase := .attempt ⟨0, [], [], [], []⟩ }

lemma ringRequest_lt : (1 : UInt32).toNat < 4 := by decide

/-- The servant's request. -/
def ringRequest : PeerCmd ℕ := .call 5 (.getRequest (ringTuple 1 ringRequest_lt))

/-- A first request, which the loop has taken. -/
lemma held_first : ∃ k a wa, Held (anyWorld ℕ) ⟨100, 10⟩ ringCall 5 0 1 k ∧
    k.state.topology = ringTopology ∧ k.phase = .waiting a ∧ a.forwarder.msgId = 5 ∧
    a.respondant.isSome = true ∧ k.state.waiting.get? 5 = some wa ∧ wa.minTarget.top = 1 ∧
    wa.respondantNode.isSome = true ∧ wa.sent = [] := by
  have held : Held (anyWorld ℕ) ⟨100, 10⟩ ringCall 5 0 0 _ :=
    .opened (show ringAttempt.phase = .attempt _ from rfl)
      (.forward (fun _ => true) 5 rfl rfl rfl trivial rfl) rfl rfl
  exact ⟨_, _, _, ((held.sent rfl).command ringRequest trivial trivial).event rfl rfl rfl rfl,
    rfl, rfl, rfl, rfl, rfl, rfl, rfl, rfl⟩

/-- Every further one is accepted, and dropped by the loop. -/
lemma held_again (n : ℕ) : ∃ k a wa, Held (anyWorld ℕ) ⟨100, 10⟩ ringCall 5 n (n + 1) k ∧
    k.state.topology = ringTopology ∧ k.phase = .waiting a ∧ a.forwarder.msgId = 5 ∧
    a.respondant.isSome = true ∧ k.state.waiting.get? 5 = some wa ∧ wa.minTarget.top = 1 ∧
    wa.respondantNode.isSome = true ∧ wa.sent = [] := by
  induction n with
  | zero => exact held_first
  | succ n ih =>
      obtain ⟨k, a, wa, held, htopology, hphase, hid, hrespondant, hwa, htop, hnode, hsent⟩ := ih
      obtain ⟨r, hr⟩ := Option.isSome_iff_exists.mp hrespondant
      have hrepeated : k.repeated 5 ringRequest = 1 := by
        simp [ringRequest, Caller.repeated, hwa, WaitingAnswer.repeated, htop, hnode, ringTuple,
          TupleNode.top]
      have held' := held.command ringRequest trivial trivial
      rw [hrepeated] at held'
      have hwa' : (k.state.handle ringRequest).waiting.get? 5 =
          some (wa.answer (.getRequest (ringTuple 1 (by decide)))) := by
        rw [ringRequest, PeerState.get?_handle_call, hwa]
        rfl
      have hanswer : wa.answer (.getRequest (ringTuple 1 (by decide))) =
          { wa with respondantNode := some (ringTuple 1 (by decide))
                    sent := [.respondantNode (ringTuple 1 (by decide))] } := by
        simp [WaitingAnswer.answer, WaitingAnswer.send, htop, hsent, ringTuple, TupleNode.top]
      rw [hanswer] at hwa'
      refine ⟨_, a,
        { wa with respondantNode := some (ringTuple 1 (by decide)), sent := [] },
        held'.event hphase (hid ▸ hwa') rfl ?_, ?_, rfl, hid, hrespondant, ?_, htop, rfl, rfl⟩
      · simp only [Attempt.receive, hr]
      · simp only [PeerState.handle_topology, htopology]
      · rw [hid]
        exact KeyedMap.get?_insert_self _ _ _

/-- One request, on a topology of one level. -/
theorem events_le_first : ∃ k : Caller ℕ, Held (anyWorld ℕ) ⟨100, 10⟩ ringCall 5 0 1 k ∧
    1 ≤ k.state.topology.levels + 0 := by
  obtain ⟨k, a, wa, held, -⟩ := held_first
  exact ⟨k, held, events_le held⟩

/-- **A servant can hold an attempt as long as it likes.** -/
theorem not_events_bounded :
    ¬∃ bound : ℕ → ℕ, ∀ (w : World ℕ) (cfg : PeerConfig) (call : ContactCall ℕ) (msgId : Int32)
      (repeats n : ℕ) (k : Caller ℕ), Held w cfg call msgId repeats n k →
        n ≤ bound k.state.topology.levels := by
  rintro ⟨bound, hbound⟩
  obtain ⟨k, a, wa, held, htopology, -⟩ := held_again (bound 1)
  have hle := hbound _ _ _ _ _ _ k held
  rw [htopology] at hle
  exact absurd hle (Nat.not_succ_le_self (bound 1))

end Netsukuku
