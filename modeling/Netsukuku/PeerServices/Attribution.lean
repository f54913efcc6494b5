import Mathlib
import Netsukuku.PeerServices.Routing
import Netsukuku.PeerServices.TupleSpec

/-!
# Who answered

Two places keep track of who serves a search.  The actor records the respondant of every
`get_request` and takes a response from the one it recorded last; the caller's event loop keeps
the first respondant it is told about and returns the response under that name.  The two agree as
long as no second node asks for the request.

* `Names` — the positions of the respondant the actor has recorded.
* `Tracks` — what the channel and the event loop hold is about that respondant.
* `KeepsRespondant` — the command does not replace the respondant of the search waited for.
* `response_from_respondant` — in a run without replacements, a returned response was brought by
  the node it is attributed to; `not_response_from_respondant_twoServants` — with two servants it
  may not be.
-/

namespace Netsukuku

variable {V : Type}

/-! ## One search -/

/-- The actor has recorded a respondant at these positions. -/
def Names (wa : WaitingAnswer V) (pos : List UInt32) : Prop :=
  ∃ r, wa.respondantNode = some r ∧ r.positions = pos

lemma names_of_respondantMatches {wa : WaitingAnswer V} {r : TupleNode}
    (h : wa.respondantMatches r = true) : Names wa r.positions := by
  obtain ⟨r₀, hr₀, hpos⟩ := (Option.any_eq_true _ _).mp h
  exact ⟨r₀, hr₀, of_decide_eq_true hpos⟩

/-- The event loop and the channel of a search agree with the actor on who serves it. -/
structure Tracks (myPos : List UInt32) (targetLevels : ℕ) (accepted : List (Int32 × V × TupleNode))
    (a : Attempt) (wa : WaitingAnswer V) : Prop where
  respondants : ∀ n, .respondantNode n ∈ wa.sent → Names wa n.positions
  responses : ∀ v, .response v ∈ wa.sent →
    ∃ r, (a.forwarder.msgId, v, r) ∈ accepted ∧ Names wa r.positions
  respondant : ∀ ρ, a.respondant = some ρ →
    ∃ n, rebaseTupleNode myPos n targetLevels = .ok ρ ∧ Names wa n.positions

namespace Tracks

variable {myPos : List UInt32} {targetLevels : ℕ} {accepted : List (Int32 × V × TupleNode)}
  {a : Attempt} {wa : WaitingAnswer V}

/-- A search nobody has worked on yet. -/
lemma new (minTarget : TupleGNode) (request : Option V) (ha : a.respondant = none) :
    Tracks myPos targetLevels accepted a (.new minTarget request) where
  respondants _ hn := absurd hn List.not_mem_nil
  responses _ hv := absurd hv List.not_mem_nil
  respondant _ hρ := by
    rw [ha] at hρ
    cases hρ

lemma mono (h : Tracks myPos targetLevels accepted a wa) (more : List (Int32 × V × TupleNode)) :
    Tracks myPos targetLevels (accepted ++ more) a wa where
  respondants := h.respondants
  responses v hv := by
    obtain ⟨r, hr, hnames⟩ := h.responses v hv
    exact ⟨r, List.mem_append_left more hr, hnames⟩
  respondant := h.respondant

/-- The recorded respondant keeps its positions, and what is new on the channel is about it. -/
lemma extend {wa' : WaitingAnswer V} {es : List (RouteEvent V)}
    (h : Tracks myPos targetLevels accepted a wa) (hsent : wa'.sent = wa.sent ++ es)
    (hnames : ∀ pos, Names wa pos → Names wa' pos)
    (hrespondants : ∀ n, .respondantNode n ∈ es → Names wa' n.positions)
    (hresponses : ∀ v, .response v ∈ es →
      ∃ r, (a.forwarder.msgId, v, r) ∈ accepted ∧ Names wa' r.positions) :
    Tracks myPos targetLevels accepted a wa' where
  respondants n hn := by
    rw [hsent] at hn
    rcases List.mem_append.mp hn with hn | hn
    · exact hnames _ (h.respondants n hn)
    · exact hrespondants n hn
  responses v hv := by
    rw [hsent] at hv
    rcases List.mem_append.mp hv with hv | hv
    · obtain ⟨r, hr, hr'⟩ := h.responses v hv
      exact ⟨r, hr, hnames _ hr'⟩
    · exact hresponses v hv
  respondant ρ hρ := by
    obtain ⟨n, hn, hn'⟩ := h.respondant ρ hρ
    exact ⟨n, hn, hnames _ hn'⟩

/-- An event that says nothing about the respondant. -/
lemma send {wa' : WaitingAnswer V} {e : RouteEvent V}
    (h : Tracks myPos targetLevels accepted a wa) (hsent : wa'.sent = wa.sent ++ [e])
    (hwa' : wa'.respondantNode = wa.respondantNode) (hn : ∀ n, e ≠ .respondantNode n)
    (hv : ∀ v, e ≠ .response v) : Tracks myPos targetLevels accepted a wa' := by
  refine h.extend hsent (fun pos hpos => ?_) (fun n hmem => ?_) (fun v hmem => ?_)
  · simpa only [Names, hwa'] using hpos
  · exact absurd (List.mem_singleton.mp hmem).symm (hn n)
  · exact absurd (List.mem_singleton.mp hmem).symm (hv v)

lemma sendIf {e : RouteEvent V} (h : Tracks myPos targetLevels accepted a wa) (accept : Bool)
    (hn : ∀ n, e ≠ .respondantNode n) (hv : ∀ v, e ≠ .response v) :
    Tracks myPos targetLevels accepted a (wa.sendIf accept e) := by
  cases accept with
  | false => exact h
  | true => exact h.send rfl rfl hn hv

/-- **A call keeps the two in agreement**, unless it replaces the respondant. -/
lemma answer (h : Tracks myPos targetLevels accepted a wa) (c : PeerCall V)
    (hkeep : ∀ respondant, c = .getRequest respondant → wa.minTarget.top = respondant.top →
      ∀ r, wa.respondantNode = some r → respondant.positions = r.positions)
    (haccepted : ∀ v r, c = .setResponse v r → wa.respondantMatches r = true →
      (a.forwarder.msgId, v, r) ∈ accepted) :
    Tracks myPos targetLevels accepted a (wa.answer c) := by
  cases c with
  | getRequest respondant =>
      simp only [WaitingAnswer.answer]
      split_ifs with htop
      · refine h.extend rfl (fun pos hpos => ?_) (fun n hn => ?_) (fun v hv => ?_)
        · obtain ⟨r, hr, rfl⟩ := hpos
          exact ⟨respondant, rfl, hkeep respondant rfl htop r hr⟩
        · cases List.mem_singleton.mp hn
          exact ⟨respondant, rfl, rfl⟩
        · cases List.mem_singleton.mp hv
      · exact h
  | setResponse v r =>
      simp only [WaitingAnswer.answer]
      cases hmatch : wa.respondantMatches r with
      | false => exact h
      | true =>
          refine h.extend rfl (fun pos hpos => hpos) (fun n hn => ?_) (fun w hw => ?_)
          · cases List.mem_singleton.mp hn
          · cases List.mem_singleton.mp hw
            exact ⟨r, haccepted v r rfl hmatch, names_of_respondantMatches hmatch⟩
  | setNextDestination tuple =>
      simp only [WaitingAnswer.answer]
      split_ifs
      · exact h.send rfl rfl (by simp) (by simp)
      · exact h
  | setMissingOptionalMaps => exact h.send rfl rfl (by simp) (by simp)
  | _ => exact h.sendIf _ (by simp) (by simp)

/-- Taking an event off the channel. -/
lemma tail {e : RouteEvent V} {rest : List (RouteEvent V)}
    (h : Tracks myPos targetLevels accepted a wa) (hsent : wa.sent = e :: rest) :
    Tracks myPos targetLevels accepted a { wa with sent := rest } where
  respondants n hn := h.respondants n (by simpa [hsent] using Or.inr hn)
  responses v hv := h.responses v (by simpa [hsent] using Or.inr hv)
  respondant := h.respondant

end Tracks

/-! ## A call and its searches -/

/-- Where a call stands, the search it waits for is tracked; and what it has returned as the
answer to a search was brought by the node it names. -/
def Attributed (call : ContactCall V) (k : Caller V) : Prop :=
  match k.phase with
  | .sending a | .waiting a => ∃ wa, k.state.waiting.get? a.forwarder.msgId = some wa ∧
      Tracks k.state.myPos.positions call.targetLevels k.accepted a wa
  | .returned (some msgId) response respondant => ∃ r n, (msgId, response, r) ∈ k.accepted ∧
      n.positions = r.positions ∧
      rebaseTupleNode k.state.myPos.positions n call.targetLevels = .ok respondant
  | _ => True

/-- The command does not replace the respondant of the search the call waits for. -/
def KeepsRespondant (k : Caller V) : PeerCmd V → Prop
  | .call msgId (.getRequest respondant) => k.phase.msgId = some msgId →
      ∀ wa, k.state.waiting.get? msgId = some wa → wa.minTarget.top = respondant.top →
        ∀ r, wa.respondantNode = some r → respondant.positions = r.positions
  | _ => True

/-- Everything may happen but a replacement of the respondant. -/
def orderlyWorld (V : Type) : World V where
  command := KeepsRespondant
  draws _ _ := True
  serves _ _ _ := True

/-- The search a call waits for stays registered, and tracked, whatever command is handled. -/
lemma tracks_handle {call : ContactCall V} {k : Caller V} {a : Attempt} {wa : WaitingAnswer V}
    (hid : k.phase.msgId = some a.forwarder.msgId)
    (hwa : k.state.waiting.get? a.forwarder.msgId = some wa)
    (h : Tracks k.state.myPos.positions call.targetLevels k.accepted a wa) {c : PeerCmd V}
    (hkeep : KeepsRespondant k c) (hforeign : k.Foreign c) :
    ∃ wa', (k.state.handle c).waiting.get? a.forwarder.msgId = some wa' ∧
      Tracks k.state.myPos.positions call.targetLevels (k.accepted ++ acceptedBy k.state c) a wa' := by
  obtain ⟨wa', hwa', rfl | ⟨pc, rfl, rfl⟩⟩ := Caller.pending_handle hid hwa hforeign
  · exact ⟨wa', hwa', h.mono _⟩
  · refine ⟨wa.answer pc, hwa', (h.mono _).answer pc ?_ ?_⟩
    · rintro respondant rfl htop r hr
      exact hkeep hid wa hwa htop r hr
    · rintro v r rfl hmatch
      refine List.mem_append_right _ ?_
      simp [acceptedBy, hwa, hmatch]

/-- The call has no search of its own, and has not returned the answer to one. -/
def Phase.Idle : Phase V → Prop
  | .sending _ | .waiting _ | .returned (some _) _ _ => False
  | _ => True

lemma attributed_of_idle {call : ContactCall V} {k : Caller V} (h : k.phase.Idle) :
    Attributed call k := by
  unfold Attributed
  rcases hphase : k.phase with _ | _ | _ | _ | ⟨_ | _, _, _⟩ | _
  all_goals
    rw [hphase] at h
    trivial

lemma idle_of_servedLocally {cfg : PeerConfig} {p : PeerState V} {call : ContactCall V} {s : Search}
    {outcome : Option (Except ExecError V)} {phase : Phase V}
    (h : servedLocally cfg p call s outcome = .ok phase) : phase.Idle := by
  rcases outcome with _ | (_ | _) | _
  · obtain ⟨_, -, h⟩ := Outcome.bind_eq_ok.mp h
    cases h
    trivial
  · obtain ⟨_, -, h⟩ := Outcome.bind_eq_ok.mp h
    cases h
    trivial
  · cases h
    trivial
  · obtain ⟨_, -, h⟩ := Outcome.bind_eq_ok.mp h
    cases h
    trivial

lemma idle_of_timeout {p : PeerState V} {call : ContactCall V} {a : Attempt} {phase : Phase V}
    (h : a.timeout p call = .ok phase) : phase.Idle := by
  obtain ⟨_, -, h⟩ := Outcome.bind_eq_ok.mp h
  cases h
  trivial

/-- **One event keeps the attribution**: the loop goes on with the first respondant it was told
about, or returns a response under its name. -/
lemma Tracks.receive {cfg : PeerConfig} {p : PeerState V} {call : ContactCall V}
    {accepted : List (Int32 × V × TupleNode)} {a : Attempt} {wa : WaitingAnswer V}
    {e : RouteEvent V} {rest : List (RouteEvent V)} {phase : Phase V}
    (h : Tracks p.myPos.positions call.targetLevels accepted a wa) (hsent : wa.sent = e :: rest)
    (hreceive : a.receive cfg p call e = .ok phase) :
    phase.Idle ∨
      (∃ a', phase = .waiting a' ∧ a'.forwarder = a.forwarder ∧
        Tracks p.myPos.positions call.targetLevels accepted a' { wa with sent := rest }) ∨
      ∃ v ρ r n, phase = .returned (some a.forwarder.msgId) v ρ ∧
        (a.forwarder.msgId, v, r) ∈ accepted ∧ n.positions = r.positions ∧
        rebaseTupleNode p.myPos.positions n call.targetLevels = .ok ρ := by
  have htail := h.tail hsent
  have hmem : e ∈ wa.sent := by simp [hsent]
  cases e with
  | nextDestination tuple =>
      cases hreceive
      exact .inr (.inl ⟨_, rfl, rfl, htail.respondants, htail.responses, htail.respondant⟩)
  | failure tuple =>
      obtain ⟨_, -, hreceive⟩ := Outcome.bind_eq_ok.mp hreceive
      cases hreceive
      exact .inl trivial
  | nonParticipant tuple =>
      obtain ⟨_, -, hreceive⟩ := Outcome.bind_eq_ok.mp hreceive
      cases hreceive
      exact .inl trivial
  | missingOptionalMaps =>
      cases hreceive
      exact .inl trivial
  | respondantNode n =>
      simp only [Attempt.receive] at hreceive
      split at hreceive
      · obtain ⟨ρ, hρ, hreceive⟩ := Outcome.bind_eq_ok.mp hreceive
        cases hreceive
        refine .inr (.inl ⟨_, rfl, rfl, htail.respondants, htail.responses, fun ρ' hρ' => ?_⟩)
        cases hρ'
        exact ⟨n, hρ, h.respondants n hmem⟩
      · cases hreceive
        exact .inr (.inl ⟨a, rfl, rfl, htail⟩)
  | response v =>
      obtain ⟨ρ, hρ, hreceive⟩ := Outcome.bind_eq_ok.mp hreceive
      cases hreceive
      -- The actor has recorded one respondant, and both the response and the name are its.
      obtain ⟨r, hr, r₀, hr₀, hrpos⟩ := h.responses v hmem
      obtain ⟨n, hn, r₁, hr₁, hnpos⟩ := h.respondant ρ (Outcome.expect_eq_ok.mp hρ)
      obtain rfl : r₀ = r₁ := Option.some.inj (hr₀.symm.trans hr₁)
      exact .inr (.inr ⟨v, ρ, r, n, rfl, hr, hnpos.symm.trans hrpos, hn⟩)
  | refuse refusal =>
      simp only [Attempt.receive] at hreceive
      split at hreceive
      · cases hreceive
        exact .inr (.inl ⟨a, rfl, rfl, htail⟩)
      · obtain ⟨_, -, hreceive⟩ := Outcome.bind_eq_ok.mp hreceive
        cases hreceive
        exact .inl trivial
  | redoFromStart =>
      simp only [Attempt.receive] at hreceive
      split at hreceive
      · cases hreceive
        exact .inr (.inl ⟨a, rfl, rfl, htail⟩)
      · cases hreceive
        exact .inl trivial

/-! ## Runs -/

lemma openAttempt_eq_ok {p : PeerState V} {call : ContactCall V} {s : Search} {x : HCoord}
    {msgId : Int32} {a : Attempt} (h : openAttempt p call s x msgId = .ok a) :
    a.forwarder.msgId = msgId ∧ a.respondant = none := by
  obtain ⟨_, -, h⟩ := Outcome.bind_eq_ok.mp h
  obtain ⟨_, -, h⟩ := Outcome.bind_eq_ok.mp h
  obtain ⟨_, -, h⟩ := Outcome.bind_eq_ok.mp h
  obtain ⟨_, -, h⟩ := Outcome.bind_eq_ok.mp h
  obtain ⟨_, -, h⟩ := Outcome.bind_eq_ok.mp h
  obtain ⟨_, -, h⟩ := Outcome.bind_eq_ok.mp h
  cases h
  exact ⟨rfl, rfl⟩

/-- A command keeps the attribution of a call, wherever it stands. -/
lemma Attributed.command {call : ContactCall V} {k : Caller V} (h : Attributed call k)
    {c : PeerCmd V} (hkeep : KeepsRespondant k c) (hforeign : k.Foreign c) :
    Attributed call
      { k with state := k.state.handle c, accepted := k.accepted ++ acceptedBy k.state c } := by
  unfold Attributed at h ⊢
  simp only [PeerState.handle_myPos]
  rcases hphase : k.phase with _ | _ | a | a | ⟨_ | msgId, v, ρ⟩ | _
  all_goals simp only [hphase] at h
  case sending =>
    obtain ⟨wa, hwa, htracks⟩ := h
    exact tracks_handle (by rw [hphase]; rfl) hwa htracks hkeep hforeign
  case waiting =>
    obtain ⟨wa, hwa, htracks⟩ := h
    exact tracks_handle (by rw [hphase]; rfl) hwa htracks hkeep hforeign
  case returned.some =>
    obtain ⟨r, n, hr, hn, hρ⟩ := h
    exact ⟨r, n, List.mem_append_left _ hr, hn, hρ⟩
  all_goals trivial

/-- **One step keeps the attribution.** -/
theorem Caller.Step.attributed {cfg : PeerConfig} {call : ContactCall V} {k k' : Caller V}
    (hstep : Step (orderlyWorld V) cfg call k k') (h : Attributed call k) : Attributed call k' := by
  cases hstep with
  | command c hc hforeign => exact h.command hc hforeign
  | registry services participantSet => exact h
  | restart hphase hstart => exact attributed_of_idle trivial
  | fail gnodeExists hphase helect => exact attributed_of_idle trivial
  | myself gnodeExists outcome hphase helect hserves hregistered hserved =>
      exact attributed_of_idle (idle_of_servedLocally hserved)
  | @forward s s' x a gnodeExists msgId hphase helect hfree hdraws hopen =>
      obtain ⟨rfl, hrespondant⟩ := openAttempt_eq_ok hopen
      exact ⟨_, KeyedMap.get?_insert_self _ _ _, Tracks.new _ _ hrespondant⟩
  | @sent a hphase =>
      rw [Attributed, hphase] at h
      exact h
  | notSent hphase => exact attributed_of_idle trivial
  | @receive a wa e rest phase hphase hwa hsent hreceive =>
      rw [Attributed, hphase] at h
      obtain ⟨wa', hwa', htracks⟩ := h
      obtain rfl : wa = wa' := Option.some.inj (hwa.symm.trans hwa')
      rcases htracks.receive hsent hreceive with hidle | ⟨a', rfl, ha', htracks'⟩ | hreturned
      · exact attributed_of_idle hidle
      · refine ⟨_, ?_, htracks'⟩
        rw [ha']
        exact KeyedMap.get?_insert_self _ _ _
      · obtain ⟨v, ρ, r, n, rfl, hr, hn, hρ⟩ := hreturned
        exact ⟨r, n, hr, hn, hρ⟩
  | timeout hphase htimeout => exact attributed_of_idle (idle_of_timeout htimeout)

lemma attributed_of_run {cfg : PeerConfig} {call : ContactCall V} {k₀ k : Caller V}
    (hrun : Relation.ReflTransGen (Caller.Step (orderlyWorld V) cfg call) k₀ k)
    (h₀ : Attributed call k₀) : Attributed call k := by
  induction hrun with
  | refl => exact h₀
  | tail _ hstep ih => exact hstep.attributed ih

/-- **A response is returned under the name of the node that brought it**, as long as no second
node asks for the request.  In every run of a call, whatever commands arrive for its searches, in
which a `get_request` for the search waited for never names another respondant than the one the
actor has recorded: if the call returns the answer to a search, the actor has accepted that
response for that search from the node it is returned under. -/
theorem response_from_respondant {cfg : PeerConfig} {call : ContactCall V} {k₀ k : Caller V}
    {hops : ℕ} (h₀ : k₀.phase = .restart hops)
    (hrun : Relation.ReflTransGen (Caller.Step (orderlyWorld V) cfg call) k₀ k)
    {msgId : Int32} {response : V} {respondant : TupleNode}
    (hreturned : k.phase = .returned (some msgId) response respondant) :
    ∃ r, (msgId, response, r) ∈ k.accepted ∧ respondant.positions =
      r.positions ++ (k.state.myPos.positions.take call.targetLevels).drop r.top := by
  have h : Attributed call k :=
    attributed_of_run hrun (attributed_of_idle (by rw [h₀]; trivial))
  rw [Attributed, hreturned] at h
  obtain ⟨r, n, hr, hn, hρ⟩ := h
  refine ⟨r, hr, ?_⟩
  rw [positions_rebaseTupleNode hρ, hn, TupleNode.top, TupleNode.top, hn]

/-! ## Two servants -/

lemma ringTopology_ne_nil : ([4] : List UInt32) ≠ [] := by simp

lemma ringTopology_pos : ∀ g ∈ ([4] : List UInt32), 0 < g.toNat := by simp

/-- A network of one level with room for four nodes, as the services see it. -/
def ringTopology : Topology := ⟨[4], ringTopology_ne_nil, ringTopology_pos⟩

/-- The node at position `p` of it. -/
def ringNode (p : UInt32) : Naddr := ⟨ringTopology, [p], rfl⟩

/-- The tuple of a real position of it. -/
def ringTuple (p : UInt32) (hp : p.toNat < 4) : TupleNode where
  topology := ringTopology
  positions := [p]
  inRange i q hq := by
    cases i with
    | zero =>
        cases hq
        exact ⟨4, rfl, hp⟩
    | succ i => cases hq

/-- The node at position `p` with one mandatory service and nothing in flight. -/
def ringPeer (p : UInt32) : PeerState ℕ where
  topology := ringTopology
  myPos := ringNode p
  services := ⟨[(⟨1⟩, false)], List.nodup_singleton _⟩
  participantSet := .empty
  waiting := .empty

/-- A call for the node closest to position 1. -/
def ringCall : ContactCall ℕ := ⟨⟨1⟩, some (ringTuple 1 (by decide)), 7, none, []⟩

/-- The node at position 0, about to make it. -/
def ringCaller : Caller ℕ := ⟨ringPeer 0, .restart 0, [], []⟩

/-- A servant fetches the request twice, and its response is returned under its name; that of a node
that has not fetched it is not taken. -/
theorem response_from_respondant_other :
    ∃ k respondant, Relation.ReflTransGen (Caller.Step (orderlyWorld ℕ) ⟨100, 10⟩ ringCall)
        ringCaller k ∧ k.phase = .returned (some 5) 42 respondant ∧
      ∃ r, (5, 42, r) ∈ k.accepted ∧ respondant.positions = r.positions ++
        (k.state.myPos.positions.take ringCall.targetLevels).drop r.top := by
  have hrun : ∃ k respondant, Relation.ReflTransGen
      (Caller.Step (orderlyWorld ℕ) ⟨100, 10⟩ ringCall) ringCaller k ∧
        k.phase = .returned (some 5) 42 respondant := by
    refine ⟨_, _, (((((((((Relation.ReflTransGen.refl.tail
      (.restart rfl rfl)).tail
      (.forward (fun _ => true) 5 rfl rfl rfl trivial rfl)).tail
      (.sent rfl)).tail
      (.command (.call 5 (.getRequest (ringTuple 1 (by decide)))) ?_ trivial)).tail
      (.command (.call 5 (.setResponse 41 (ringTuple 2 (by decide)))) trivial trivial)).tail
      (.command (.call 5 (.getRequest (ringTuple 1 (by decide)))) ?_ trivial)).tail
      (.receive rfl rfl rfl rfl)).tail
      (.command (.call 5 (.setResponse 42 (ringTuple 1 (by decide)))) trivial trivial)).tail
      (.receive rfl rfl rfl rfl)).tail
      (.receive rfl rfl rfl rfl), rfl⟩
    all_goals
      intro _ wa hwa _ r hr
      cases hwa
      cases hr
    rfl
  obtain ⟨k, respondant, hsteps, hphase⟩ := hrun
  exact ⟨k, respondant, hsteps, hphase, response_from_respondant rfl hsteps hphase⟩

/-- Any command may arrive, any free id may be drawn, and a service may answer anything. -/
def anyWorld (V : Type) : World V where
  command _ _ := True
  draws _ _ := True
  serves _ _ _ := True

/-- **Two servants are mixed up.**  The nodes at positions 1 and 2 both fetch the request; the
actor then takes the response of the second, and the call returns it under the name of the
first. -/
theorem not_response_from_respondant_twoServants :
    ∃ k respondant, Relation.ReflTransGen (Caller.Step (anyWorld ℕ) ⟨100, 10⟩ ringCall)
        ringCaller k ∧ k.phase = .returned (some 5) 42 respondant ∧
      respondant.positions = [1] ∧ k.accepted = [(5, 42, ringTuple 2 (by decide))] ∧
      ¬ ∃ r, (5, 42, r) ∈ k.accepted ∧ respondant.positions = r.positions ++
        (k.state.myPos.positions.take ringCall.targetLevels).drop r.top := by
  refine ⟨_, _, ((((((((Relation.ReflTransGen.refl.tail
    (.restart rfl rfl)).tail
    (.forward (fun _ => true) 5 rfl rfl rfl trivial rfl)).tail
    (.sent rfl)).tail
    (.command (.call 5 (.getRequest (ringTuple 1 (by decide)))) trivial trivial)).tail
    (.command (.call 5 (.getRequest (ringTuple 2 (by decide)))) trivial trivial)).tail
    (.command (.call 5 (.setResponse 42 (ringTuple 2 (by decide)))) trivial trivial)).tail
    (.receive rfl rfl rfl rfl)).tail
    (.receive rfl rfl rfl rfl)).tail
    (.receive rfl rfl rfl rfl), rfl, rfl, rfl, ?_⟩
  rintro ⟨r, hr, hpos⟩
  have hr₂ : (5, 42, r) ∈ [((5 : Int32), 42, ringTuple 2 (by decide))] := hr
  have hr₂' : r = ringTuple 2 (by decide) := by
    simpa only [List.mem_singleton, Prod.mk.injEq, true_and] using hr₂
  subst hr₂'
  revert hpos
  decide

end Netsukuku
