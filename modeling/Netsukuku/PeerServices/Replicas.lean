import Mathlib
import Netsukuku.PeerServices.Attribution
import Netsukuku.PeerServices.Servants

/-!
# Replicas on distinct nodes

`replicate` collects respondants one call at a time, each call excluding the nodes collected
before.  A call that goes out honours the exclusion: the caller leaves out the excluded nodes it
can see, and sends the others on with the message, where every node on the way does the same.  The
one node nobody leaves out is the caller itself, which is neither visible nor hidden to itself.

* `HonestCommand`, `honestWorld` — the peers that fetch a request are the ones the message elected,
  and no message id is drawn twice; a caller that is excluded does not serve.
* `KeepsSeeds` — the search still excludes the nodes the call started with.
* `Distinct`, `Caller.Step.distinct` — a call returns a node it was not told to exclude.
* `replicas_nodup` — then no node is collected twice; `not_replicas_nodup_alone` — a caller that
  may serve again is collected again.
-/

namespace Netsukuku

variable {V : Type}

/-! ## The surroundings -/

/-- The servant was elected by the message, which a gateway took towards its target. -/
def ElectedFrom (V : Type) (me : Naddr) (mf : PeerMessageForwarder) (n : TupleNode) : Prop :=
  ∃ c, SameGnode (mf.lvl + 1) me c ∧ Elects V c mf n

/-- A request the call waits for is fetched only by a node that a message of that id elected. -/
def HonestCommand (k : Caller V) : PeerCmd V → Prop
  | .call msgId (.getRequest n) => k.phase.msgId = some msgId →
      ∃ mf ∈ k.forwarded, mf.msgId = msgId ∧ ElectedFrom V k.state.myPos mf n
  | _ => True

/-- The call was told to exclude a g-node its own node is in. -/
def ExcludesCaller (k : Caller V) (call : ContactCall V) : Prop :=
  ∃ gn ∈ call.seedExcludeTupleList, ∃ h,
    convertTupleGnode k.state.myPos.positions gn = .ok (.mine, h)

/-- An honest network, in which no message id is drawn twice. -/
def networkWorld (V : Type) : World V where
  command := HonestCommand
  draws k msgId := ∀ mf ∈ k.forwarded, mf.msgId ≠ msgId
  serves _ _ _ := True

/-- The same, where a caller that is excluded does not answer its own call. -/
def honestWorld (V : Type) : World V :=
  { networkWorld V with
    serves := fun k call outcome => ExcludesCaller k call → ∀ v, outcome ≠ some (.ok v) }

/-! ## One call -/

/-- The search still excludes what the call started with. -/
structure KeepsSeeds (myPos : List UInt32) (call : ContactCall V) (s : Search) : Prop where
  tuples : ∀ gn ∈ call.seedExcludeTupleList, gn ∈ s.excludeTupleList
  visible : ∀ gn ∈ call.seedExcludeTupleList, ∀ ret,
    convertTupleGnode myPos gn = .ok (.visible, ret) → ret ∈ s.excludeGnodeList

lemma KeepsSeeds.mono {myPos : List UInt32} {call : ContactCall V} {s s' : Search}
    (h : KeepsSeeds myPos call s) (htuples : s.excludeTupleList ⊆ s'.excludeTupleList)
    (hgnodes : s.excludeGnodeList ⊆ s'.excludeGnodeList) : KeepsSeeds myPos call s' where
  tuples gn hgn := htuples (h.tuples gn hgn)
  visible gn hgn ret hret := hgnodes (h.visible gn hgn ret hret)

/-- A search starts with the seeds excluded. -/
lemma keepsSeeds_startSearch {p : PeerState V} {call : ContactCall V} {hops : ℕ} {s : Search}
    (h : startSearch p call hops = .ok s) : KeepsSeeds p.myPos.positions call s := by
  obtain ⟨nonParticipants, -, h⟩ := Outcome.bind_eq_ok.mp h
  obtain ⟨mine, -, h⟩ := Outcome.bind_eq_ok.mp h
  obtain ⟨visible, hvisible, h⟩ := Outcome.bind_eq_ok.mp h
  cases h
  refine ⟨fun gn hgn => hgn, fun gn hgn ret hret => ?_⟩
  obtain ⟨l, hl, hgn'⟩ := Outcome.exists_of_mapM hvisible gn hgn
  rw [excludeVisible, hret, Outcome.ok_bind] at hgn'
  cases hgn'
  exact List.mem_append_right _ (List.mem_flatten_of_mem hl (by simp))

/-- Giving an attempt up only excludes more. -/
lemma keepsSeeds_giveUp {p : PeerState V} {call : ContactCall V} {a : Attempt} {gn gn' : TupleGNode}
    {s : Search} (hs : KeepsSeeds p.myPos.positions call a.search)
    (h : a.giveUp p call gn = .ok (s, gn')) : KeepsSeeds p.myPos.positions call s := by
  obtain ⟨_, -, h⟩ := Outcome.bind_eq_ok.mp h
  obtain ⟨_, htuple, h⟩ := Outcome.bind_eq_ok.mp h
  cases h
  obtain ⟨visible, -, htuple⟩ := Outcome.bind_eq_ok.mp htuple
  cases htuple
  exact hs.mono (List.subset_append_left _ _) (List.subset_append_left _ _)

lemma keepsSeeds_refused {cfg : PeerConfig} {p : PeerState V} {call : ContactCall V} {a : Attempt}
    {respondant : TupleNode} {refusal : Refusal} {s : Search}
    (hs : KeepsSeeds p.myPos.positions call a.search)
    (h : a.refused cfg p respondant refusal = .ok s) : KeepsSeeds p.myPos.positions call s := by
  obtain ⟨gn, -, h⟩ := Outcome.bind_eq_ok.mp h
  split at h
  · cases h
  · obtain ⟨mine, -, h⟩ := Outcome.bind_eq_ok.mp h
    cases h
    exact hs.mono (List.Subset.refl _) (List.subset_append_left _ _)
  · obtain ⟨excluded, -, h⟩ := Outcome.bind_eq_ok.mp h
    cases h
    exact hs.mono (List.subset_append_left _ _) (List.subset_append_left _ _)

/-- The respondant spans the call's scope and is none of the nodes it was told to exclude. -/
def Avoids (call : ContactCall V) (respondant : TupleNode) : Prop :=
  respondant.top = call.targetLevels ∧ ∀ gn ∈ call.seedExcludeTupleList, gn.level = 0 →
    gn.top = call.targetLevels → gn.positions ≠ respondant.positions

/-- An attempt that excludes the seeds, whose message is the only one of its id. -/
structure AttemptOk (call : ContactCall V) (k : Caller V) (a : Attempt) : Prop where
  keeps : KeepsSeeds k.state.myPos.positions call a.search
  handed : ∃ x, Handed k.state.myPos.positions call.seedExcludeTupleList x a.forwarder ∧
    x.level < call.targetLevels
  n_top : a.forwarder.n.top = a.forwarder.lvl + 1
  mem : a.forwarder ∈ k.forwarded
  unique : ∀ mf ∈ k.forwarded, mf.msgId = a.forwarder.msgId → mf = a.forwarder
  respondant : ∀ ρ, a.respondant = some ρ → Avoids call ρ

/-- **A node the message elected is none of the seeds**, once rebased to the scope of the call. -/
lemma AttemptOk.avoids {call : ContactCall V} {k : Caller V} {a : Attempt} (h : AttemptOk call k a)
    {n ρ : TupleNode} (hn : ElectedFrom V k.state.myPos a.forwarder n)
    (hρ : rebaseTupleNode k.state.myPos.positions n call.targetLevels = .ok ρ) : Avoids call ρ := by
  obtain ⟨x, hhanded, hlt⟩ := h.handed
  obtain ⟨c, hsame, helects⟩ := hn
  obtain ⟨f, hserves, hnpos⟩ := helects.exists_serves
  obtain ⟨hsame', hfpos, havoids⟩ :=
    hserves.spec fun y hy => by rw [hhanded.scope y hy, hhanded.lvl]
  have hlen : f.positions.length = k.state.myPos.positions.length :=
    (hsame.length_eq.trans hsame'.length_eq).symm
  have habove : f.positions.drop (x.level + 1) = k.state.myPos.positions.drop (x.level + 1) := by
    rw [← hhanded.lvl]
    exact (hsame.2.trans hsame'.2).symm
  have htarget : call.targetLevels ≤ f.positions.length := by
    obtain ⟨_, -, hρ⟩ := Outcome.bind_eq_ok.mp hρ
    obtain ⟨above, hslice, -⟩ := Outcome.bind_eq_ok.mp hρ
    rw [hlen]
    exact (Outcome.slice_eq_ok.mp hslice).1.2
  have hρpos : ρ.positions = f.positions.take call.targetLevels := by
    have hntop : n.top = x.level + 1 := by
      rw [TupleNode.top, hnpos, List.length_take, h.n_top, hhanded.lvl]
      omega
    rw [positions_rebaseTupleNode hρ, hntop, hnpos, h.n_top, hhanded.lvl, List.drop_take,
      ← habove, ← List.drop_take]
    conv_rhs => rw [← List.take_append_drop (x.level + 1) (f.positions.take call.targetLevels)]
    rw [List.take_take, Nat.min_eq_left hlt]
  refine ⟨by rw [TupleNode.top, hρpos, List.length_take, Nat.min_eq_left htarget], ?_⟩
  intro gn hgn hlevel htop hgnpos
  have hfx : f.positions[x.level]? = some x.pos := by rw [← hhanded.lvl, hfpos, hhanded.pos]
  have hcontains : gn.Contains f.positions :=
    contains_of_take hlevel (by rw [hgnpos, hρpos, htop])
  obtain ⟨cut, hcut, hcuttop, hcutcontains⟩ := hhanded.contains_cut hfx habove hgn
    (hlevel ▸ Nat.zero_le _) (by rw [htop]; exact hlt) hcontains
  exact havoids cut hcut hcuttop hcutcontains

/-- The caller's own tuple is what its address shows in the scope. -/
lemma ownTuple_eq_ok {p : PeerState V} {targetLevels : ℕ} {ρ : TupleNode}
    (h : ownTuple p targetLevels = .ok ρ) :
    ρ.top = targetLevels ∧ ρ.positions = p.myPos.positions.take targetLevels := by
  unfold ownTuple at h
  split_ifs at h with hzero
  · obtain ⟨-, hpos⟩ := TupleNode.new_eq_ok.mp (Outcome.unwrap_eq_ok.mp h)
    exact ⟨by rw [TupleNode.top, hpos, hzero, List.length_nil], by rw [hpos, hzero, List.take_zero]⟩
  · obtain ⟨p₀, hp₀, h⟩ := Outcome.bind_eq_ok.mp h
    exact ⟨top_makeTupleNode h, positions_makeTupleNode_self (Outcome.index_eq_ok.mp hp₀) h⟩

/-- The caller is none of the seeds, if none of them names it. -/
lemma avoids_ownTuple {k : Caller V} {call : ContactCall V} {ρ : TupleNode}
    (hmine : ¬ ExcludesCaller k call) (h : ownTuple k.state call.targetLevels = .ok ρ) :
    Avoids call ρ := by
  obtain ⟨htop, hρ⟩ := ownTuple_eq_ok h
  refine ⟨htop, fun gn hgn hlevel hgntop hpos => ?_⟩
  obtain ⟨q, hconvert⟩ := convertTupleGnode_of_contains
    (@contains_of_take k.state.myPos.positions _ hlevel (by rw [hgntop, hpos, hρ]))
  exact hmine ⟨gn, hgn, _, hconvert⟩

/-- An election that did not fail counts the hop and says whom it elected. -/
lemma elect_eq_ok {cfg : PeerConfig} {p : PeerState V} {call : ContactCall V}
    {gnodeExists : HCoord → Bool} {s s' : Search} {o : Election}
    (h : elect cfg p call gnodeExists s = .ok (s', o)) (ho : ∀ e, o ≠ .failed e) :
    s' = { s with hops := s.hops + 1 } ∧ ∃ x p₀, p.myPos.positions[0]? = some p₀ ∧
      approximate p.topology p.myPos.positions call.xMacron s.excludeGnodeList gnodeExists =
        .ok (some x) ∧ o = if x = ⟨0, p₀⟩ then .myself else .remote x := by
  simp only [elect] at h
  by_cases hhops : cfg.maxContactPeerHops < s.hops + 1
  · rw [if_pos hhops] at h
    cases h
    exact absurd rfl (ho _)
  rw [if_neg hhops] at h
  obtain ⟨elected, helected, h⟩ := Outcome.bind_eq_ok.mp h
  cases elected with
  | none =>
      cases h
      exact absurd rfl (ho _)
  | some x =>
      obtain ⟨p₀, hp₀, h⟩ := Outcome.bind_eq_ok.mp h
      cases h
      exact ⟨rfl, x, p₀, Outcome.index_eq_ok.mp hp₀, helected, rfl⟩

/-- What an election of another g-node found out. -/
lemma elect_remote {cfg : PeerConfig} {p : PeerState V} {call : ContactCall V}
    {gnodeExists : HCoord → Bool} {s s' : Search} {x : HCoord}
    (h : elect cfg p call gnodeExists s = .ok (s', .remote x)) :
    s' = { s with hops := s.hops + 1 } ∧ x ∉ s.excludeGnodeList ∧ x.level < call.targetLevels ∧
      ∃ q, p.myPos.positions[x.level]? = some q ∧ q ≠ x.pos := by
  obtain ⟨hs', y, p₀, hp₀, happrox, ho⟩ := elect_eq_ok h (fun e he => by cases he)
  obtain ⟨hnotMem, hy⟩ := approximate_eq_some happrox
  split_ifs at ho with hme
  cases ho
  rcases hy with ⟨hlevel, hpos⟩ | ⟨z, hz, hcandidate⟩
  · refine absurd ?_ hme
    obtain ⟨level, pos⟩ := x
    cases hlevel
    cases hpos.symm.trans hp₀
    rfl
  · refine ⟨hs', hnotMem, ?_, hcandidate.parts⟩
    rw [ContactCall.targetLevels, hz]
    exact hcandidate.level_lt

/-- The message of a new attempt carries the exclusion on. -/
lemma handed_openAttempt {p : PeerState V} {call : ContactCall V} {s : Search} {x : HCoord}
    {msgId : Int32} {a : Attempt} {excluded : List TupleGNode}
    (htuples : ∀ gn ∈ excluded, gn ∈ s.excludeTupleList)
    (hvisible : ∀ gn ∈ excluded, ∀ ret,
      convertTupleGnode p.myPos.positions gn = .ok (.visible, ret) → ret ∈ s.excludeGnodeList)
    (hx : x ∉ s.excludeGnodeList) (hparts : ∃ q, p.myPos.positions[x.level]? = some q ∧ q ≠ x.pos)
    (h : openAttempt p call s x msgId = .ok a) :
    Handed p.myPos.positions excluded x a.forwarder ∧ a.search = s ∧
      a.forwarder.n.top = a.forwarder.lvl + 1 ∧ a.forwarder.msgId = msgId ∧
      a.respondant = none := by
  obtain ⟨p₀, -, h⟩ := Outcome.bind_eq_ok.mp h
  obtain ⟨n, hn, h⟩ := Outcome.bind_eq_ok.mp h
  obtain ⟨xMacron, hxMacron, h⟩ := Outcome.bind_eq_ok.mp h
  obtain ⟨cuts, hcuts, h⟩ := Outcome.bind_eq_ok.mp h
  obtain ⟨nonParticipants, -, h⟩ := Outcome.bind_eq_ok.mp h
  obtain ⟨minTarget, -, h⟩ := Outcome.bind_eq_ok.mp h
  cases h
  refine ⟨⟨hparts, fun gn hgn hconvert => ?_, fun gn hgn hconvert => ?_, rfl, rfl,
    top_cutXMacron hxMacron⟩, rfl, ?_, rfl, rfl⟩
  · exact hx (hvisible gn hgn x hconvert)
  · exact exists_cut hcuts (htuples gn hgn) hconvert
  · exact top_makeTupleNode hn

/-- Only a `get_request` puts a respondant on the channel. -/
lemma respondantNode_mem_answer {wa : WaitingAnswer V} {c : PeerCall V} {n : TupleNode}
    (h : .respondantNode n ∈ (wa.answer c).sent) :
    .respondantNode n ∈ wa.sent ∨ c = .getRequest n := by
  cases c with
  | getRequest m =>
      simp only [WaitingAnswer.answer] at h
      split_ifs at h
      · rcases List.mem_append.mp h with h | h
        · exact .inl h
        · cases List.mem_singleton.mp h
          exact .inr rfl
      · exact .inl h
  | setNextDestination tuple =>
      simp only [WaitingAnswer.answer] at h
      split_ifs at h
      · exact .inl (by simpa [WaitingAnswer.send] using h)
      · exact .inl h
  | setMissingOptionalMaps =>
      exact .inl (by simpa [WaitingAnswer.answer, WaitingAnswer.send] using h)
  | _ =>
      simp only [WaitingAnswer.answer, WaitingAnswer.sendIf] at h
      split_ifs at h
      · exact .inl (by simpa [WaitingAnswer.send] using h)
      · exact .inl h

/-- Where a call stands, it excludes its seeds; and what it has returned is none of them. -/
def Distinct (call : ContactCall V) (k : Caller V) : Prop :=
  match k.phase with
  | .attempt s => KeepsSeeds k.state.myPos.positions call s
  | .sending a | .waiting a => AttemptOk call k a ∧
      ∃ wa, k.state.waiting.get? a.forwarder.msgId = some wa ∧
        ∀ n, .respondantNode n ∈ wa.sent → ElectedFrom V k.state.myPos a.forwarder n
  | .returned _ _ respondant => Avoids call respondant
  | _ => True

/-- The channel of the search waited for names only nodes its message elected. -/
lemma electedFrom_handle {call : ContactCall V} {k : Caller V} {a : Attempt}
    {wa : WaitingAnswer V} (hid : k.phase.msgId = some a.forwarder.msgId)
    (hok : AttemptOk call k a) (hwa : k.state.waiting.get? a.forwarder.msgId = some wa)
    (h : ∀ n, .respondantNode n ∈ wa.sent → ElectedFrom V k.state.myPos a.forwarder n)
    {c : PeerCmd V} (hhonest : HonestCommand k c) (hforeign : k.Foreign c) :
    ∃ wa', (k.state.handle c).waiting.get? a.forwarder.msgId = some wa' ∧
      ∀ n, .respondantNode n ∈ wa'.sent → ElectedFrom V k.state.myPos a.forwarder n := by
  obtain ⟨wa', hwa', rfl | ⟨pc, rfl, rfl⟩⟩ := Caller.pending_handle hid hwa hforeign
  · exact ⟨wa', hwa', h⟩
  · refine ⟨_, hwa', fun n hn => ?_⟩
    rcases respondantNode_mem_answer hn with hn | rfl
    · exact h n hn
    · obtain ⟨mf, hmf, hmsgId, helected⟩ := hhonest hid
      obtain rfl := hok.unique mf hmf hmsgId
      exact helected

/-- A handler of the actor changes nothing an attempt rests on. -/
lemma AttemptOk.handle {call : ContactCall V} {k : Caller V} {a : Attempt} (h : AttemptOk call k a)
    (c : PeerCmd V) (accepted : List (Int32 × V × TupleNode)) :
    AttemptOk call { k with state := k.state.handle c, accepted } a where
  keeps := by simpa using h.keeps
  handed := by simpa using h.handed
  n_top := h.n_top
  mem := h.mem
  unique := h.unique
  respondant := h.respondant

lemma Distinct.command {call : ContactCall V} {k : Caller V} (h : Distinct call k) {c : PeerCmd V}
    (hhonest : HonestCommand k c) (hforeign : k.Foreign c)
    (accepted : List (Int32 × V × TupleNode)) :
    Distinct call { k with state := k.state.handle c, accepted } := by
  unfold Distinct at h ⊢
  simp only [PeerState.handle_myPos]
  rcases hphase : k.phase with _ | s | a | a | _ | _
  all_goals simp only [hphase] at h
  case attempt => exact h
  case sending =>
    obtain ⟨hok, wa, hwa, hchannel⟩ := h
    have hid : k.phase.msgId = some a.forwarder.msgId := by rw [hphase]; rfl
    exact ⟨hphase ▸ hok.handle c accepted, electedFrom_handle hid hok hwa hchannel hhonest hforeign⟩
  case waiting =>
    obtain ⟨hok, wa, hwa, hchannel⟩ := h
    have hid : k.phase.msgId = some a.forwarder.msgId := by rw [hphase]; rfl
    exact ⟨hphase ▸ hok.handle c accepted, electedFrom_handle hid hok hwa hchannel hhonest hforeign⟩
  case returned => exact h
  all_goals trivial

/-- What the local service makes of a call. -/
lemma distinct_servedLocally {cfg : PeerConfig} {call : ContactCall V} {k : Caller V} {s : Search}
    {outcome : Option (Except ExecError V)} {phase : Phase V}
    (hs : KeepsSeeds k.state.myPos.positions call s)
    (hserves : ExcludesCaller k call → ∀ v, outcome ≠ some (.ok v))
    (h : servedLocally cfg k.state call s outcome = .ok phase) :
    Distinct call { k with phase } := by
  rcases outcome with _ | (_ | _) | v
  · obtain ⟨p₀, -, h⟩ := Outcome.bind_eq_ok.mp h
    cases h
    exact hs.mono (List.Subset.refl _) (List.subset_append_left _ _)
  · obtain ⟨mine, -, h⟩ := Outcome.bind_eq_ok.mp h
    cases h
    exact hs.mono (List.Subset.refl _) (List.subset_append_left _ _)
  · cases h
    trivial
  · obtain ⟨ρ, hρ, h⟩ := Outcome.bind_eq_ok.mp h
    cases h
    exact avoids_ownTuple (fun hmine => hserves hmine v rfl) hρ

/-- **One event keeps the exclusion.** -/
lemma AttemptOk.receive {cfg : PeerConfig} {call : ContactCall V} {k : Caller V} {a : Attempt}
    {wa : WaitingAnswer V} {e : RouteEvent V} {rest : List (RouteEvent V)} {phase : Phase V}
    (h : AttemptOk call k a)
    (hchannel : ∀ n, .respondantNode n ∈ wa.sent → ElectedFrom V k.state.myPos a.forwarder n)
    (hsent : wa.sent = e :: rest) (hreceive : a.receive cfg k.state call e = .ok phase) :
    Distinct call
      { k with
        state := { k.state with
          waiting := k.state.waiting.insert a.forwarder.msgId { wa with sent := rest } }
        phase } := by
  have hrest : ∀ n, .respondantNode n ∈ rest → ElectedFrom V k.state.myPos a.forwarder n :=
    fun n hn => hchannel n (by rw [hsent]; exact List.mem_cons_of_mem e hn)
  -- The loop goes on with `a'`, whose message is that of `a`.
  have hstay : ∀ a' : Attempt, a'.search = a.search → a'.forwarder = a.forwarder →
      (∀ ρ, a'.respondant = some ρ → Avoids call ρ) → Distinct call
        { k with
          state := { k.state with
            waiting := k.state.waiting.insert a.forwarder.msgId { wa with sent := rest } }
          phase := .waiting a' } := by
    intro a' hsearch hforwarder hrespondant
    refine ⟨⟨by rw [hsearch]; exact h.keeps, by rw [hforwarder]; exact h.handed,
      by rw [hforwarder]; exact h.n_top, by rw [hforwarder]; exact h.mem,
      by rw [hforwarder]; exact h.unique, hrespondant⟩, { wa with sent := rest }, ?_, ?_⟩
    · rw [hforwarder]
      exact KeyedMap.get?_insert_self _ _ _
    · rw [hforwarder]
      exact hrest
  cases e with
  | nextDestination tuple =>
      cases hreceive
      exact hstay _ rfl rfl h.respondant
  | failure tuple =>
      obtain ⟨⟨s, gn⟩, hgiveUp, hreceive⟩ := Outcome.bind_eq_ok.mp hreceive
      cases hreceive
      exact keepsSeeds_giveUp h.keeps hgiveUp
  | nonParticipant tuple =>
      obtain ⟨⟨s, gn⟩, hgiveUp, hreceive⟩ := Outcome.bind_eq_ok.mp hreceive
      cases hreceive
      exact (keepsSeeds_giveUp h.keeps hgiveUp).mono (List.Subset.refl _) (List.Subset.refl _)
  | missingOptionalMaps =>
      cases hreceive
      trivial
  | respondantNode n =>
      simp only [Attempt.receive] at hreceive
      split at hreceive
      · obtain ⟨ρ, hρ, hreceive⟩ := Outcome.bind_eq_ok.mp hreceive
        cases hreceive
        refine hstay _ rfl rfl fun ρ' hρ' => ?_
        cases hρ'
        exact h.avoids (hchannel n (by rw [hsent]; exact List.mem_cons_self)) hρ
      · cases hreceive
        exact hstay a rfl rfl h.respondant
  | response v =>
      obtain ⟨ρ, hρ, hreceive⟩ := Outcome.bind_eq_ok.mp hreceive
      cases hreceive
      exact h.respondant ρ (Outcome.expect_eq_ok.mp hρ)
  | refuse refusal =>
      simp only [Attempt.receive] at hreceive
      split at hreceive
      · cases hreceive
        exact hstay a rfl rfl h.respondant
      · obtain ⟨s, hs, hreceive⟩ := Outcome.bind_eq_ok.mp hreceive
        cases hreceive
        exact keepsSeeds_refused h.keeps hs
  | redoFromStart =>
      simp only [Attempt.receive] at hreceive
      split at hreceive
      · cases hreceive
        exact hstay a rfl rfl h.respondant
      · cases hreceive
        trivial

/-- **One step keeps a call away from its seeds.** -/
theorem Caller.Step.distinct {cfg : PeerConfig} {call : ContactCall V} {k k' : Caller V}
    (hstep : Step (honestWorld V) cfg call k k') (h : Distinct call k) : Distinct call k' := by
  cases hstep with
  | command c hc hforeign => exact h.command hc hforeign _
  | registry services participantSet =>
      unfold Distinct at h ⊢
      rcases hphase : k.phase with _ | s | a | a | _ | _
      all_goals simp only [hphase] at h
      case attempt => exact h
      case sending =>
        exact ⟨hphase ▸ ⟨h.1.keeps, h.1.handed, h.1.n_top, h.1.mem, h.1.unique, h.1.respondant⟩, h.2⟩
      case waiting =>
        exact ⟨hphase ▸ ⟨h.1.keeps, h.1.handed, h.1.n_top, h.1.mem, h.1.unique, h.1.respondant⟩, h.2⟩
      case returned => exact h
      all_goals trivial
  | restart hphase hstart => exact keepsSeeds_startSearch hstart
  | fail gnodeExists hphase helect => trivial
  | @myself s s' phase gnodeExists outcome hphase helect hserves hregistered hserved =>
      rw [Distinct, hphase] at h
      obtain ⟨rfl, -⟩ := elect_eq_ok helect (fun e he => by cases he)
      have hkeeps : KeepsSeeds k.state.myPos.positions call { s with hops := s.hops + 1 } :=
        h.mono (List.Subset.refl _) (List.Subset.refl _)
      exact distinct_servedLocally hkeeps hserves hserved
  | @forward s s' x a gnodeExists msgId hphase helect hfree hdraws hopen =>
      rw [Distinct, hphase] at h
      obtain ⟨rfl, hx, hlt, hparts⟩ := elect_remote helect
      have hkeeps : KeepsSeeds k.state.myPos.positions call { s with hops := s.hops + 1 } :=
        h.mono (List.Subset.refl _) (List.Subset.refl _)
      obtain ⟨hhanded, hsearch, hntop, rfl, hrespondant⟩ :=
        handed_openAttempt hkeeps.tuples hkeeps.visible hx hparts hopen
      refine ⟨⟨by rw [hsearch]; exact hkeeps, ⟨x, hhanded, hlt⟩, hntop,
        List.mem_append_right _ List.mem_cons_self, fun mf hmf hmsgId => ?_, fun ρ hρ => ?_⟩, _,
        KeyedMap.get?_insert_self _ _ _, fun n hn => absurd hn List.not_mem_nil⟩
      · rcases List.mem_append.mp hmf with hmf | hmf
        · exact absurd hmsgId (hdraws mf hmf)
        · exact List.mem_singleton.mp hmf
      · rw [hrespondant] at hρ
        cases hρ
  | @sent a hphase =>
      rw [Distinct, hphase] at h
      exact ⟨⟨h.1.keeps, h.1.handed, h.1.n_top, h.1.mem, h.1.unique, h.1.respondant⟩, h.2⟩
  | @notSent a hphase =>
      rw [Distinct, hphase] at h
      exact h.1.keeps
  | @receive a wa e rest phase hphase hwa hsent hreceive =>
      rw [Distinct, hphase] at h
      obtain ⟨hok, wa', hwa', hchannel⟩ := h
      obtain rfl : wa = wa' := Option.some.inj (hwa.symm.trans hwa')
      exact hok.receive hchannel hsent hreceive
  | @timeout a phase hphase htimeout =>
      rw [Distinct, hphase] at h
      obtain ⟨⟨s, gn⟩, hgiveUp, htimeout⟩ := Outcome.bind_eq_ok.mp htimeout
      cases htimeout
      exact keepsSeeds_giveUp h.1.keeps hgiveUp

lemma distinct_of_run {cfg : PeerConfig} {call : ContactCall V} {k₀ k : Caller V}
    (hrun : Relation.ReflTransGen (Caller.Step (honestWorld V) cfg call) k₀ k)
    (h₀ : Distinct call k₀) : Distinct call k := by
  induction hrun with
  | refl => exact h₀
  | tail _ hstep ih => exact hstep.distinct ih

/-! ## Replication -/

/-- The respondants collected are pairwise distinct, and the next call will exclude them all. -/
structure Collected (target : TupleNode) (r : Replication V) : Prop where
  nodup : (r.replicas.map fun e => e.2.positions).Nodup
  excluded : ∀ e ∈ r.replicas, ∃ gn ∈ r.excludeTupleList, gn.level = 0 ∧ gn.top = target.top ∧
    gn.positions = e.2.positions

/-- **One round collects a new node.** -/
lemma Replication.Step.collected {cfg : PeerConfig} {pId : ServiceId} {target : TupleNode}
    {request : V} {q : UInt32} {r r' : Replication V}
    (hstep : Step (honestWorld V) cfg pId target request q r r') (h : Collected target r) :
    Collected target r' := by
  cases hstep with
  | @round k msgId response respondant gn hq hrun hreturned hgn =>
      have hdistinct := distinct_of_run hrun trivial
      rw [Distinct, hreturned] at hdistinct
      obtain ⟨htop, havoids⟩ := hdistinct
      obtain ⟨-, hgntop, hgnpos⟩ := TupleGNode.new_eq_ok.mp (Outcome.unwrap_eq_ok.mp hgn)
      refine ⟨?_, fun e he => ?_⟩
      · rw [List.map_append, List.nodup_append]
        refine ⟨h.nodup, List.nodup_singleton _, ?_⟩
        rintro pos hpos _ hnew rfl
        obtain ⟨e, he, rfl⟩ := List.mem_map.mp hpos
        obtain ⟨gn', hgn', hlevel', htop', hpos'⟩ := h.excluded e he
        have hnew' : e.2.positions = respondant.positions := List.mem_singleton.mp hnew
        exact havoids gn' hgn' hlevel' htop' (hpos'.trans hnew')
      · rcases List.mem_append.mp he with he | he
        · obtain ⟨gn', hgn', hrest⟩ := h.excluded e he
          exact ⟨gn', List.mem_append_left _ hgn', hrest⟩
        · cases List.mem_singleton.mp he
          refine ⟨gn, List.mem_append_right _ List.mem_cons_self, ?_, hgntop.trans htop, hgnpos⟩
          rw [TupleGNode.level, hgntop, hgnpos, TupleNode.top, Nat.sub_self]

/-- **Replicas are on distinct nodes, as long as an excluded caller does not serve.**  In every run
of `replicate` on an honest network in which no message id is drawn twice, if the local service
answers in no call that was told to exclude the caller itself, the respondants collected at any
time are pairwise different. -/
theorem replicas_nodup {cfg : PeerConfig} {pId : ServiceId} {target : TupleNode} {request : V}
    {q : UInt32} (k : Caller V) {r : Replication V}
    (hrun : Relation.ReflTransGen
      (Replication.Step (honestWorld V) cfg pId target request q) ⟨k, [], []⟩ r) :
    (r.replicas.map fun e => e.2.positions).Nodup := by
  have h : Collected target r := by
    induction hrun with
    | refl => exact ⟨List.nodup_nil, fun e he => absurd he List.not_mem_nil⟩
    | tail _ hstep ih => exact hstep.collected ih
  exact h.nodup

/-! ## A caller that serves again -/

/-- The message from position 0 to the node at position 1. -/
def ringMessage : PeerMessageForwarder where
  insideLevel := 1
  n := ringTuple 0 (by decide)
  xMacron := none
  lvl := 0
  pos := 1
  pId := ⟨1⟩
  msgId := 5
  excludeTupleList := []
  nonParticipantTupleList := []

/-- The node at position 1 elects itself for it. -/
lemma electedFrom_ring : ElectedFrom ℕ (ringNode 0) ringMessage (ringTuple 1 (by decide)) :=
  ⟨ringNode 1, ⟨rfl, rfl⟩, .serve (ringPeer 1) 1 (fun _ => true) rfl rfl⟩

/-- The neighbour first, then the caller itself. -/
theorem replicas_nodup_twoNodes :
    ∃ r : Replication ℕ, Relation.ReflTransGen (Replication.Step (honestWorld ℕ) ⟨100, 10⟩ ⟨1⟩
        (ringTuple 1 (by decide)) 7 2) ⟨ringCaller, [], []⟩ r ∧
      (r.replicas.map fun e => e.2.positions) = [[1], [0]] ∧
      (r.replicas.map fun e => e.2.positions).Nodup := by
  have hrun : ∃ r : Replication ℕ, Relation.ReflTransGen (Replication.Step (honestWorld ℕ)
      ⟨100, 10⟩ ⟨1⟩ (ringTuple 1 (by decide)) 7 2) ⟨ringCaller, [], []⟩ r ∧
        (r.replicas.map fun e => e.2.positions) = [[1], [0]] := by
    refine ⟨_, (Relation.ReflTransGen.refl.tail (.round ?_
      (((((((Relation.ReflTransGen.refl.tail
        (.restart rfl rfl)).tail
        (.forward (fun _ => true) 5 rfl rfl rfl ?_ rfl)).tail
        (.sent rfl)).tail
        (.command (.call 5 (.getRequest (ringTuple 1 (by decide)))) ?_ trivial)).tail
        (.command (.call 5 (.setResponse 42 (ringTuple 1 (by decide)))) trivial trivial)).tail
        (.receive rfl rfl rfl rfl)).tail
        (.receive rfl rfl rfl rfl)) rfl rfl)).tail
      (.round ?_ ((Relation.ReflTransGen.refl.tail
        (.restart rfl rfl)).tail
        (.myself (fun _ => false) (some (.ok 42)) rfl rfl ?_ ?_ rfl)) rfl rfl), rfl⟩
    · decide
    · rintro ⟨gn, hgn, h, hconvert⟩
      cases List.mem_singleton.mp hgn
      cases hconvert
    · decide
    · decide
    · intro mf hmf
      cases hmf
    · intro _
      exact ⟨ringMessage, List.mem_cons_self, rfl, electedFrom_ring⟩
  obtain ⟨r, hsteps, hpositions⟩ := hrun
  exact ⟨r, hsteps, hpositions, replicas_nodup ringCaller hsteps⟩

/-- **A caller that is closest is collected twice.**  The node at position 1 is the closest to the
target, and knows of nobody else; both rounds elect it and it serves both. -/
theorem not_replicas_nodup_alone :
    ∃ r : Replication ℕ, Relation.ReflTransGen (Replication.Step (networkWorld ℕ) ⟨100, 10⟩ ⟨1⟩
        (ringTuple 1 (by decide)) 7 2) ⟨⟨ringPeer 1, .restart 0, [], []⟩, [], []⟩ r ∧
      (r.replicas.map fun e => e.2.positions) = [[1], [1]] ∧
      ¬ (r.replicas.map fun e => e.2.positions).Nodup := by
  refine ⟨_, (Relation.ReflTransGen.refl.tail (.round ?_
    ((Relation.ReflTransGen.refl.tail
      (.restart rfl rfl)).tail
      (.myself (fun _ => false) (some (.ok 42)) rfl rfl trivial (by decide) rfl)) rfl rfl)).tail
    (.round ?_ ((Relation.ReflTransGen.refl.tail
      (.restart rfl rfl)).tail
      (.myself (fun _ => false) (some (.ok 42)) rfl rfl trivial (by decide) rfl)) rfl rfl),
    rfl, ?_⟩
  · decide
  · show ¬ [[(1 : UInt32)], [1]].Nodup
    decide
  · decide

end Netsukuku
