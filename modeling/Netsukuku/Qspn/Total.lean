import Mathlib
import Netsukuku.Qspn.Handlers

/-!
# The actor never panics

A panic ends the actor task, and the node with it.  On a state that satisfies the node invariant
every handler returns, whatever the command brings, as long as the messages it brings are fit for
the node.  The handlers are taken in the order in which they call one another; each lemma cites
the totality of its callees and, for the state they leave, `…_goes`.

* `doRemoveArc_returns`, `ingestCheckedEtp_returns`, … — one lemma a handler.
* `Actor.handle_returns` — every command.
-/

namespace Netsukuku

variable {F : Type} {me : Naddr} {ρ : Rule}

/-- The computation returns. -/
def Returns {α : Type} (x : Outcome Empty α) : Prop := ∃ a, x = .ok a

namespace Returns

variable {α β : Type}

lemma ok (a : α) : Returns (.ok a : Outcome Empty α) := ⟨a, rfl⟩

lemma bind {x : Outcome Empty α} {f : α → Outcome Empty β} (hx : Returns x)
    (hf : ∀ a, x = .ok a → Returns (f a)) : Returns (x >>= f) := Outcome.bind_ok hx hf

/-- An attempt returns unless what is attempted panics. -/
lemma attempt {δ σ : Type} {s : σ} {x : Outcome δ α}
    (h : (∃ a, x = .ok a) ∨ ∃ e, x = .error (.err e)) :
    Returns (Outcome.attempt (s, x)) := by
  rcases h with ⟨a, rfl⟩ | ⟨e, rfl⟩
  · exact ⟨(s, some a), rfl⟩
  · exact ⟨(s, none), rfl⟩

end Returns

/-! ## What the handlers share, and the handlers that merge nothing -/

section Parts

variable {s : QspnState F}

lemma publishSnapshot_returns (h : MapInv s) : Returns (publishSnapshot s) :=
  (Returns.attempt (Or.inl h.snapshot_ok)).bind fun _ _ => .ok _

lemma publishIf_returns (h : MapInv s) (changed : Bool) : Returns (publishIf changed s) := by
  unfold publishIf
  split_ifs
  · exact publishSnapshot_returns h
  · exact .ok _

/-- Paths that meet the condition can be sent. -/
lemma sending_returns (h : NodeInv me ρ s) {paths : List EtpPath}
    (hpaths : ∀ p ∈ paths, ρ.Path p.body) (hops : List HCoord) {β : Type}
    {f : EtpMessage → Outcome Empty β} (hf : ∀ m, Returns (f m)) :
    Returns (do
      let wire ← finalizeForSending s paths
      let msg ← prepareNewEtp s wire hops
      f msg) := by
  rw [h.map.finalizeForSending_eq fun p hp => ρ.sendable p (hpaths p hp), Outcome.ok_bind,
    h.map.prepareNewEtp_eq, Outcome.ok_bind]
  exact hf _

lemma full_returns (h : MapInv s) {β : Type} {f : EtpMessage → Outcome Empty β}
    (hf : ∀ m, Returns (f m)) : Returns (prepareFullEtp s >>= f) := by
  rw [h.prepareFullEtp_eq, Outcome.ok_bind]
  exact hf _

lemma doRemoveArc_returns (h : NodeInv me ρ s) (arc : ArcId) (badLink : Bool) :
    Returns (doRemoveArc s arc badLink) :=
  (publishIf_returns (h.removeArc arc).map _).bind fun _ _ => .ok _

lemma doExitBootstrap_returns (h : NodeInv me ρ s) : Returns (doExitBootstrap s) :=
  (publishSnapshot_returns (h.setBootstrap .complete).map).bind fun _ _ => .ok _

lemma forwardIngested_returns (h : NodeInv me ρ s) (arc : ArcId) {i : Ingested}
    (hi : ∀ p ∈ i.allPathsSet, ρ.Path p.body) : Returns (forwardIngested s arc i) := by
  refine (publishIf_returns h.map _).bind ?_
  intro published _
  split_ifs
  · exact sending_returns h hi i.hops fun _ => .ok _
  · exact .ok _

/-- Recording and revising an accepted message returns or reports an error. -/
lemma reviseOver_returns {m : EtpMessage} (hin : checkIncomingMessage m s.myNaddr = true)
    (arc : ArcId) (isFull : Bool) :
    Returns (Outcome.attempt (s.reviseOver arc m isFull)) := by
  rw [← Prod.mk.eta (p := s.reviseOver arc m isFull), QspnState.reviseOver_snd]
  exact .attempt (reviseEtp_ne_panic hin arc _ isFull _)

lemma handleRemoveArc_returns (h : NodeInv me ρ s) (arc : ArcId) :
    Returns (handleRemoveArc s arc) := by
  unfold handleRemoveArc
  split_ifs
  · exact (publishIf_returns (h.removeArc arc).map _).bind fun _ _ => .ok _
  · exact .ok _

lemma gatherStep_returns {acc : QspnState F × List Effect × List NodePath}
    (h : NodeInv me ρ acc.1) {reply : ArcId × Option EtpMessage}
    (hm : ∀ m ∈ reply.2, Accepts me ρ m) :
    ∃ acc', gatherStep acc reply = .ok acc' ∧ NodeInv me ρ acc'.1 := by
  obtain ⟨s₀, effects, q⟩ := acc
  obtain ⟨arc, reply⟩ := reply
  have hreturns : Returns (gatherStep (s₀, effects, q) (arc, reply)) := by
    unfold gatherStep
    simp only
    split_ifs
    · exact .ok _
    · cases reply with
      | none => exact (doRemoveArc_returns h arc true).bind fun _ _ => .ok _
      | some etp =>
          simp only
          split_ifs with hin
          · refine (reviseOver_returns hin arc true).bind ?_
            rintro ⟨s₁, revised⟩ _
            cases revised <;> exact .ok _
          · exact (doRemoveArc_returns h arc false).bind fun _ _ => .ok _
  obtain ⟨acc', hacc'⟩ := hreturns
  refine ⟨acc', hacc', ?_⟩
  rcases gatherStep_cases hacc' with
    ⟨_, rfl⟩ | ⟨_, _, s₁, removed, hremove, rfl⟩ | ⟨_, m, hreply, hin, hcase⟩
  · exact h
  · exact (doRemoveArc_goes h hremove).inv
  · have h₁ := (h.reviseOver (hm m hreply) hin arc true).1
    rcases hcase with ⟨r, _, rfl⟩ | ⟨_, rfl⟩ <;> exact h₁

lemma handlePeriodicFullEtp_returns (h : NodeInv me ρ s) :
    Returns (handlePeriodicFullEtp s) := by
  unfold handlePeriodicFullEtp
  split_ifs
  · exact .ok _
  · exact full_returns h.map fun _ => .ok _

lemma handleFirstDetectionSplit_returns (h : NodeInv me ρ s) (bSet : List HCoord) :
    Returns (handleFirstDetectionSplit s bSet) := by
  unfold handleFirstDetectionSplit
  simp only
  split_ifs
  · exact .ok _
  · refine sending_returns h ?_ [] fun _ => .ok _
    intro p hp
    obtain ⟨np, hnp, rfl⟩ := List.mem_map.mp hp
    obtain ⟨g, _, hnp⟩ := List.mem_flatMap.mp hnp
    exact h.wire (d := g) hnp _

lemma handleExitNetwork_returns (h : NodeInv me ρ s) (level : ℕ) :
    Returns (handleExitNetwork s level) := by
  obtain ⟨s₁, o, hexit, h₁⟩ := h.map.exitNetwork_ok level
  simp only [handleExitNetwork, hexit, Outcome.attempt, Outcome.ok_bind]
  refine (publishIf_returns h₁ _).bind ?_
  intro published _
  split_ifs
  · exact full_returns h₁ fun _ => .ok _
  · exact .ok _

/-- What a handler of the state alone does, the actor does. -/
lemma Actor.lift_returns {a : Actor F} {x : Outcome Empty (QspnState F × List Effect)}
    (hx : Returns x) : Returns (a.lift x) := hx.bind fun _ _ => .ok _

end Parts

/-! ## The handlers that merge -/

section Handlers

variable [Float64 F] {s : QspnState F} {order : MapOrder}

lemma ingestCheckedEtp_returns (h : NodeInv me ρ s) {m : EtpMessage} (hm : Accepts me ρ m)
    (hin : checkIncomingMessage m s.myNaddr = true) (arc : ArcId) (isFull : Bool) :
    Returns (ingestCheckedEtp order s arc m isFull) := by
  refine (reviseOver_returns hin arc isFull).bind ?_
  rintro ⟨s₁, revised⟩ hrevised
  obtain ⟨rfl, hrev⟩ := Outcome.attempt_eq_ok.mp hrevised
  rcases hrev with ⟨r, hr, rfl⟩ | ⟨_, rfl⟩
  · obtain ⟨h₁, hcand⟩ := h.reviseOver hm hin arc isFull
    obtain ⟨hq, hP, _⟩ := hcand r hr
    have hlevels : (s.reviseOver arc m isFull).1.levels = s.levels := by
      simp [QspnState.reviseOver_fst, QspnState.levels]
    obtain ⟨s₂, out, hmap, h₂, _⟩ := h₁.updateMap order (hlevels ▸ hq) hP none
    obtain ⟨s₃, events, hclimb, _⟩ := h₂.map.updateClusters_ok
    simp only [hmap, hclimb, Outcome.attempt, Outcome.ok_bind]
    exact .ok _
  · exact .ok _

lemma ingestIncomingEtp_returns (h : NodeInv me ρ s) {m : EtpMessage} (hm : Accepts me ρ m)
    (arc : ArcId) (isFull : Bool) : Returns (ingestIncomingEtp order s arc m isFull) := by
  unfold ingestIncomingEtp
  split_ifs with hin
  · exact ingestCheckedEtp_returns h hm hin arc isFull
  · exact (doRemoveArc_returns h arc false).bind fun _ _ => .ok _

lemma handleBootstrapEtpFetched_returns (h : NodeInv me ρ s) (arc : ArcId)
    {result : Option EtpMessage} (hm : ∀ m ∈ result, Accepts me ρ m) :
    Returns (handleBootstrapEtpFetched order s arc result) := by
  unfold handleBootstrapEtpFetched
  cases s.bootstrap with
  | complete => exact .ok _
  | inProgress guest host =>
      simp only
      split_ifs
      · exact .ok _
      · cases result with
        | none => exact doRemoveArc_returns h arc true
        | some etp =>
            simp only
            split
            · exact .ok _
            · split_ifs
              · exact .ok _
              · refine (ingestIncomingEtp_returns h (hm etp rfl) arc true).bind ?_
                rintro ⟨s₁, effects, o⟩ hingest
                have h₁ := (ingestIncomingEtp_goes h (hm etp rfl) hingest).1.inv
                exact (doExitBootstrap_returns h₁).bind fun _ _ => .ok _

lemma exitBootstrapStep_returns {acc : QspnState F × List Effect × Bool} (h : NodeInv me ρ acc.1)
    {reply : ArcId × Option EtpMessage} (hm : ∀ m ∈ reply.2, Accepts me ρ m) :
    ∃ acc', exitBootstrapStep order acc reply = .ok acc' ∧ NodeInv me ρ acc'.1 := by
  obtain ⟨s₀, effects, changed⟩ := acc
  obtain ⟨arc, reply⟩ := reply
  unfold exitBootstrapStep
  simp only
  split_ifs
  · exact ⟨_, rfl, h⟩
  · cases reply with
    | none =>
        obtain ⟨⟨s₁, removed⟩, hremove⟩ := doRemoveArc_returns h arc true
        exact ⟨_, by rw [hremove, Outcome.ok_bind], (doRemoveArc_goes h hremove).inv⟩
    | some etp =>
        obtain ⟨⟨s₁, more, o⟩, hingest⟩ : Returns (ingestIncomingEtp order s₀ arc etp true) :=
          ingestIncomingEtp_returns h (hm etp rfl) arc true
        exact ⟨(s₁, effects ++ more, changed || o.any Ingested.changed),
          by simp only [hingest, Outcome.ok_bind], (ingestIncomingEtp_goes h (hm etp rfl) hingest).1.inv⟩

lemma handleExitBootstrapGathered_returns (h : NodeInv me ρ s)
    {results : List (ArcId × Option EtpMessage)}
    (hm : ∀ e ∈ results, ∀ m ∈ e.2, Accepts me ρ m) :
    Returns (handleExitBootstrapGathered order s results) := by
  obtain ⟨⟨s₁, effects, changed⟩, hfold, h₁⟩ :=
    Outcome.foldlM_ok (f := exitBootstrapStep order) (P := fun acc => NodeInv me ρ acc.1)
      (s := (s, [], false)) h fun acc e hacc he => exitBootstrapStep_returns hacc (hm e he)
  rw [handleExitBootstrapGathered, hfold, Outcome.ok_bind]
  refine (publishIf_returns h₁.map changed).bind ?_
  intro published _
  split_ifs
  · exact full_returns h₁.map fun _ => .ok _
  · exact .ok _

lemma handleArcAddFetched_returns (h : NodeInv me ρ s) (arc : ArcId)
    {result : Option EtpMessage} (hm : ∀ m ∈ result, Accepts me ρ m) :
    Returns (handleArcAddFetched order s arc result) := by
  unfold handleArcAddFetched
  split_ifs
  · exact .ok _
  · cases result with
    | none => exact doRemoveArc_returns h arc true
    | some etp =>
        refine (ingestIncomingEtp_returns h (hm etp rfl) arc true).bind ?_
        rintro ⟨s₁, effects, o⟩ hingest
        obtain ⟨⟨h₁, _⟩, hing⟩ := ingestIncomingEtp_goes h (hm etp rfl) hingest
        cases o with
        | none => exact .ok _
        | some i =>
            refine (forwardIngested_returns h₁ arc (hing i rfl).1).bind ?_
            intro forwarded _
            exact full_returns h₁.map fun _ => .ok _

lemma handleGatherComplete_returns (h : NodeInv me ρ s) (aChanged : Option ArcId)
    {extra : List EtpPath} (hextra : ∀ p ∈ extra, ρ.Path p.body)
    {results : List (ArcId × Option EtpMessage)}
    (hm : ∀ e ∈ results, ∀ m ∈ e.2, Accepts me ρ m) :
    Returns (handleGatherComplete order s aChanged extra results) := by
  obtain ⟨⟨s₁, effects, q⟩, hfold, _⟩ :=
    Outcome.foldlM_ok (f := gatherStep (F := F)) (P := fun acc => NodeInv me ρ acc.1)
      (s := (s, [], [])) h fun acc e hacc he => gatherStep_returns hacc (hm e he)
  obtain ⟨⟨h₁, _⟩, hq, hP⟩ := gather_goes h hm hfold
  obtain ⟨s₂, out, hmap, h₂, _, hout⟩ := h₁.updateMap order hq hP aChanged
  obtain ⟨s₃, events, hclimb, hs₃, hsame⟩ := h₂.map.updateClusters_ok
  have h₃ := h₂.sameMap hs₃ hsame
  simp only [handleGatherComplete, hfold, hmap, hclimb, Outcome.attempt, Outcome.ok_bind]
  refine (publishIf_returns h₃.map _).bind ?_
  intro published _
  split_ifs
  · refine sending_returns h₃ ?_ [] fun _ => .ok _
    intro p hp
    exact (List.mem_append.mp hp).elim (hout p) (hextra p)
  · exact .ok _

lemma handleInboundSendEtp_returns (h : NodeInv me ρ s) (arc : ArcId) {m : EtpMessage}
    (hm : Accepts me ρ m) (isFull : Bool) :
    Returns (handleInboundSendEtp order s arc m isFull) := by
  unfold handleInboundSendEtp
  split_ifs with harc hin
  · exact .ok _
  · exact doRemoveArc_returns h arc false
  · have hin : checkIncomingMessage m s.myNaddr = true := by simpa using hin
    cases s.bootstrap with
    | inProgress guest host =>
        simp only
        split_ifs
        · refine (ingestCheckedEtp_returns h hm hin arc isFull).bind ?_
          rintro ⟨s₁, effects, o⟩ hingest
          have h₁ := (ingestCheckedEtp_goes h hm hin hingest).1.inv
          exact (doExitBootstrap_returns h₁).bind fun _ _ => .ok _
        · exact .ok _
    | complete =>
        refine (ingestCheckedEtp_returns h hm hin arc isFull).bind ?_
        rintro ⟨s₁, effects, o⟩ hingest
        obtain ⟨⟨h₁, _⟩, hing⟩ := ingestCheckedEtp_goes h hm hin hingest
        cases o with
        | none => exact .ok _
        | some i => exact (forwardIngested_returns h₁ arc (hing i rfl).1).bind fun _ _ => .ok _

/-- **Every command is handled without a panic.** -/
theorem Actor.handle_returns {a : Actor F} (h : NodeInv me ρ a.state) {c : Command}
    (hc : CommandOk me ρ F c) (order : MapOrder) : Returns (a.handle order c) := by
  cases c with
  | addArc drawn cost => exact Actor.lift_returns (.ok _)
  | arcAddFetched arc result => exact Actor.lift_returns (handleArcAddFetched_returns h arc hc)
  | arcChanged arc cost => exact .ok _
  | removeArc arc => exact Actor.lift_returns (handleRemoveArc_returns h arc)
  | gatherComplete aChanged extra results =>
      exact Actor.lift_returns (handleGatherComplete_returns h aChanged hc.1 hc.2)
  | sendEtp arc etp isFull => exact Actor.lift_returns (handleInboundSendEtp_returns h arc hc isFull)
  | gotDestroy arc => exact Actor.lift_returns (doRemoveArc_returns h arc false)
  | resendEtp arc etp isFull => exact .ok _
  | resendFailed arc => exact Actor.lift_returns (doRemoveArc_returns h arc true)
  | periodicFullEtp => exact Actor.lift_returns (handlePeriodicFullEtp_returns h)
  | bootstrapEtpFetched arc result =>
      exact Actor.lift_returns (handleBootstrapEtpFetched_returns h arc hc)
  | bootstrapTimeout =>
      refine Actor.lift_returns ?_
      unfold handleBootstrapTimeout
      split_ifs
      · exact .ok _
      · exact doExitBootstrap_returns h
  | exitBootstrapGathered results =>
      exact Actor.lift_returns (handleExitBootstrapGathered_returns h hc)
  | exitNetwork level => exact Actor.lift_returns (handleExitNetwork_returns h level)
  | firstDetectionSplitFire bSet =>
      exact Actor.lift_returns (handleFirstDetectionSplit_returns h bSet)
  | arcGatherWindowElapsed => exact .ok _

/-- The answer to a request for everything the node knows is a message or an error. -/
lemma handleInboundGetFullEtp_answers (h : MapInv s) (arc : ArcId) (requester : Naddr) :
    (∃ m, handleInboundGetFullEtp s arc requester = .ok m) ∨
      ∃ e, handleInboundGetFullEtp s arc requester = .error (.err e) := by
  by_cases hboot : s.bootstrap = .complete
  · by_cases harc : s.containsArc arc = true
    · by_cases htop : s.myNaddr.topology = requester.topology
      · cases hb : s.myNaddr.hcoord requester with
        | ok o =>
            cases o with
            | none =>
                refine Or.inr ⟨.etpFromSelf, ?_⟩
                simp [handleInboundGetFullEtp, QspnState.isBootstrapComplete, hboot, harc, hb,
                  Outcome.mapErr, Outcome.fail]
            | some b => exact Or.inl ⟨_, h.handleInboundGetFullEtp_eq hboot harc hb⟩
        | error e =>
            rw [Naddr.hcoord, if_pos htop] at hb
            cases hb
      · refine Or.inr ⟨.common .topologyMismatch, ?_⟩
        simp [handleInboundGetFullEtp, QspnState.isBootstrapComplete, hboot, harc, Naddr.hcoord,
          htop, Outcome.mapErr, Outcome.fail]
    · exact Or.inr ⟨.notAnArc, by
        simp [handleInboundGetFullEtp, QspnState.isBootstrapComplete, hboot, harc, Outcome.fail]⟩
  · exact Or.inr ⟨.bootstrapInProgress, by
      simp [handleInboundGetFullEtp, QspnState.isBootstrapComplete, hboot, Outcome.fail]⟩

end Handlers

end Netsukuku
