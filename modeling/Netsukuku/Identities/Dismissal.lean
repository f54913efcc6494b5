import Mathlib
import Netsukuku.Identities.ArcTable
import Netsukuku.Identities.Network

/-!
# What a dismissal leaves at the peers

`notify_identity_arc_removed` names two identities: `my_id`, which is the sender's, and `peer_id`,
which is the receiver's.  The handler passes both on under the same names, so the receiver looks
for an identity-arc from the sender's identity to its own.

* `dismissed_disappears_iff` — what the receiver does is what it should exactly where it had
  nothing to do, and where the two identities happen to have one id.
-/

namespace Netsukuku.Identities

/-! ## At the receiver -/

/-- There is no identity-arc from `id` to `peerId` over the arc. -/
def Gone (s : State) (id peerId : IdentityId) (arc : ArcId) : Prop :=
  peerId ∉ peers s.identityArcs (id, arc)

/-- Every identity-arc to an identity other than `peerId` is still there. -/
def Spares (peerId : IdentityId) (before after : State) : Prop :=
  ∀ key, ((after.identityArcs.get? key).getD []).filter (·.peerId ≠ peerId)
    = ((before.identityArcs.get? key).getD []).filter (·.peerId ≠ peerId)

/-- What the receiver must find for the notification that `x` has gone, sent to `p`, to do what it
is for: no identity-arc either way between the two ids, or, if they are one id, no repeated
one. -/
def NotifyFits (s : State) (x p : IdentityId) (arc : ArcId) : Prop :=
  if p = x then (peers s.identityArcs (x, arc)).count x ≤ 1
  else x ∉ peers s.identityArcs (p, arc) ∧ p ∉ peers s.identityArcs (x, arc)

lemma State.getD_onNotify (s : State) (myId peerId : IdentityId) (arc : ArcId)
    (key : IdentityId × ArcId) :
    ((s.onNotifyIdentityArcRemoved myId peerId arc).identityArcs.get? key).getD []
      = if key = (myId, arc) then
          ((s.identityArcs.get? (myId, arc)).getD []).eraseP (·.peerId = peerId)
        else (s.identityArcs.get? key).getD [] := by
  unfold onNotifyIdentityArcRemoved
  cases hl : s.identityArcs.get? (myId, arc) with
  | none =>
      by_cases hk : key = (myId, arc)
      · rw [if_pos hk, hk, hl]
        rfl
      · rw [if_neg hk]
  | some list =>
      show ((s.identityArcs.insert (myId, arc) _).get? key).getD [] = _
      rw [KeyedMap.get?_insert_eq_update]
      by_cases hk : key = (myId, arc)
      · rw [if_pos hk, hk, Function.update_self]
        rfl
      · rw [if_neg hk, Function.update_of_ne hk]

/-- A list without its first identity-arc to `p`, told apart by the peers it has. -/
lemma eraseP_peer_cases (l : List IdentityArc) (p : IdentityId) :
    (p ∉ l.map (·.peerId) ∧ l.eraseP (·.peerId = p) = l) ∨
      ∃ a l₁ l₂, a.peerId = p ∧ l = l₁ ++ a :: l₂ ∧ l.eraseP (·.peerId = p) = l₁ ++ l₂ := by
  rcases List.exists_or_eq_self_of_eraseP (fun ia : IdentityArc => decide (ia.peerId = p)) l with
    h | ⟨a, l₁, l₂, _, ha, hl, herase⟩
  · by_cases hp : p ∈ l.map (·.peerId)
    · obtain ⟨ia, hia, hpeer⟩ := List.mem_map.mp hp
      obtain ⟨a, l₁, l₂, _, ha, hl, herase⟩ :=
        List.exists_of_eraseP (p := fun ia : IdentityArc => decide (ia.peerId = p)) hia
          (decide_eq_true hpeer)
      exact .inr ⟨a, l₁, l₂, of_decide_eq_true ha, hl, herase⟩
    · exact .inl ⟨hp, h⟩
  · exact .inr ⟨a, l₁, l₂, of_decide_eq_true ha, hl, herase⟩

/-- The notification executed in any state. -/
lemma notify_iff (s : State) (x p : IdentityId) (arc : ArcId) :
    Gone (s.onNotifyIdentityArcRemoved x p arc) p x arc ∧
        Spares x s (s.onNotifyIdentityArcRemoved x p arc) ↔ NotifyFits s x p arc := by
  unfold Gone Spares NotifyFits peers
  simp only [State.getD_onNotify]
  generalize hl : (s.identityArcs.get? (x, arc)).getD [] = l
  have hspares : (∀ key, (if key = (x, arc) then l.eraseP (·.peerId = p)
        else (s.identityArcs.get? key).getD []).filter (·.peerId ≠ x)
        = ((s.identityArcs.get? key).getD []).filter (·.peerId ≠ x)) ↔
      (l.eraseP (·.peerId = p)).filter (·.peerId ≠ x) = l.filter (·.peerId ≠ x) := by
    constructor
    · intro h
      have hx := h (x, arc)
      rwa [if_pos rfl, hl] at hx
    · intro h key
      by_cases hk : key = (x, arc)
      · rw [if_pos hk, hk, hl]
        exact h
      · rw [if_neg hk]
  rw [hspares]
  by_cases hpx : p = x
  · -- one id: the first of the identity-arcs to it goes
    subst hpx
    rw [if_pos rfl, if_pos rfl]
    rcases eraseP_peer_cases l p with ⟨hp, herase⟩ | ⟨a, l₁, l₂, ha, rfl, herase⟩
    · rw [herase, List.count_eq_zero_of_not_mem hp]
      simp [hp]
    · rw [herase, List.map_append, List.map_append, List.map_cons, ha, List.count_append,
        List.count_cons_self, List.filter_append, List.filter_append,
        List.filter_cons_of_neg (by simpa using ha), ← List.count_eq_zero, List.count_append,
        and_iff_left rfl]
      omega
  · -- two ids: whatever goes is an identity-arc to the wrong one
    have hkey : (p, arc) ≠ (x, arc) := fun h => hpx (congrArg Prod.fst h)
    rw [if_neg hkey, if_neg hpx]
    refine and_congr_right fun _ => ?_
    rcases eraseP_peer_cases l p with ⟨hp, herase⟩ | ⟨a, l₁, l₂, ha, rfl, herase⟩
    · rw [herase]
      simp [hp]
    · have hmem : p ∈ (l₁ ++ a :: l₂).map (·.peerId) := by simp [ha]
      refine iff_of_false (fun h => ?_) (fun h => h hmem)
      have hlen := congrArg List.length h
      rw [herase, List.filter_append, List.filter_append,
        List.filter_cons_of_pos (by simpa [ha] using hpx), List.length_append, List.length_append,
        List.length_cons] at hlen
      omega

/-! ## Through encoder, handler and actor -/

/-- The commands a handler queues whatever its actor answers. -/
def Serving.queued : Serving → List Cmd
  | .queue cmd next => cmd :: next.queued
  | _ => []

variable {ν : Type} [DecidableEq ν]

/-- **A dismissed identity at its peers.**  Let the call that tells `P` of the identity-arc from
`x` to `p` be served at `P` as it comes in over `arc`, and the command it queues be executed there
in any state of the network.  Then `P` has no identity-arc from `p` to `x` on that arc and has lost none to another
identity if and only if it found none either way between the two ids (or the ids are the same and
it found at most one). -/
theorem dismissed_disappears_iff (net : Network ν) {P : ν} {arc : ArcId} (x p : IdentityId)
    {cmd : Cmd} (hcmd : cmd ∈ (serve (some arc) (notifyCall x p)).queued) (d : Draw) :
    (Gone ((net.execute P d cmd).state P) p x arc ∧
        Spares x (net.state P) ((net.execute P d cmd).state P)) ↔
      NotifyFits (net.state P) x p arc := by
  have hcmd : cmd = .notifyIdentityArcRemoved x p arc := List.mem_singleton.mp hcmd
  subst hcmd
  have hstate : (net.execute P d (.notifyIdentityArcRemoved x p arc)).state P
      = (net.state P).onNotifyIdentityArcRemoved x p arc := by
    show Function.update net.state P _ P = _
    rw [Function.update_self]
    rfl
  rw [hstate]
  exact notify_iff _ _ _ _

/-- A node whose identity 2 has an identity-arc to a namesake and one to 7. -/
def namesakes : State :=
  { linked with
    identityArcs := linked.identityArcs.insert (2, 6)
      [⟨2, "02:00:00:00:00:02", "fe80::2"⟩, ⟨7, "02:00:00:00:00:07", "fe80::7"⟩] }

/-- Told that the namesake has gone, it removes that identity-arc and keeps the one to 7. -/
theorem dismissed_disappears_iff_namesakes :
    peers namesakes.identityArcs (2, 6) = [2, 7] ∧
      (Gone (((⟨fun _ => namesakes, 0, 0, 0⟩ : Network Bool).execute true (.of 3)
          (.notifyIdentityArcRemoved 2 2 6)).state true) 2 2 6 ∧
        Spares 2 namesakes (((⟨fun _ => namesakes, 0, 0, 0⟩ : Network Bool).execute true (.of 3)
          (.notifyIdentityArcRemoved 2 2 6)).state true)) :=
  ⟨by decide +kernel,
    (dismissed_disappears_iff ⟨fun _ => namesakes, 0, 0, 0⟩ 2 2 (List.mem_singleton.mpr rfl)
      (.of 3)).mpr (by unfold NotifyFits; decide +kernel)⟩

/-! ## A fork taken back -/

/-- Two nodes joined by arc 5 of the first and arc 6 of the second. -/
def twoNodes : Links Bool where
  peer n arc :=
    if n = false ∧ arc = 5 then some (true, 6)
    else if n = true ∧ arc = 6 then some (false, 5) else none
  symm := by
    intro n m arc arc' h
    split at h
    · next hn =>
        cases h
        rw [hn.1, hn.2]
        rfl
    · split at h
      · next hn =>
          cases h
          rw [hn.1, hn.2]
          rfl
      · cases h

/-- The last command of a task, with nothing else under way. -/
lemma Network.Reached.result {links : Links ν} {state : ν → State} {ts : Multiset (ν × Process)}
    {n : ν} {cmd : Cmd} (run : Reached links ⟨state, (n, .send cmd) ::ₘ ts, 0, 0⟩) (d : Draw)
    (hd : d.Allowed (state n)) :
    Reached links ((⟨state, ts, 0, 0⟩ : Network ν).execute n d cmd) :=
  (run.move (.send rfl)).move (.execute d rfl hd)

/-- Resolving an arc with nothing else under way. -/
lemma Network.Reached.resolve {links : Links ν} {state : ν → State} {ts : Multiset (ν × Process)}
    {n m : ν} {arc arc' : ArcId}
    (run : Reached links ⟨state, (n, resolvePeerMainId arc) ::ₘ ts, 0, 0⟩)
    (hlink : links.peer n arc = some (m, arc')) (d : Draw) (hd : d.Allowed (state n)) :
    Reached links ((⟨state, ts, 0, 0⟩ : Network ν).execute n d
      (.applyArcAdd arc (.ok (state m).registry.mainId))) := by
  have hserved : Reached links ⟨state, ts, 0,
      ⟨n, fun result => .send (.applyArcAdd arc (decodePeerMainId result)), m,
        serve (some arc') .getPeerMainId⟩ ::ₘ 0⟩ := run.move (.dial rfl hlink)
  have hcalls : (⟨state, ts, 0,
      ⟨n, fun result => .send (.applyArcAdd arc (decodePeerMainId result)), m,
        serve (some arc') .getPeerMainId⟩ ::ₘ 0⟩ : Network ν).calls
      = ⟨n, fun result => .send (.applyArcAdd arc (decodePeerMainId result)), m,
          .mainId fun id => .reply (.ok (.identityId id))⟩ ::ₘ 0 := rfl
  have hanswered : Reached links ⟨state, ts, 0,
      ⟨n, fun result => .send (.applyArcAdd arc (decodePeerMainId result)), m,
        .reply (.ok (.identityId (state m).registry.mainId))⟩ ::ₘ 0⟩ :=
    hserved.move (.mainId hcalls)
  have hcalls : (⟨state, ts, 0,
      ⟨n, fun result => .send (.applyArcAdd arc (decodePeerMainId result)), m,
        .reply (.ok (.identityId (state m).registry.mainId))⟩ ::ₘ 0⟩ : Network ν).calls
      = ⟨n, fun result => .send (.applyArcAdd arc (decodePeerMainId result)), m,
          .reply (.ok (.identityId (state m).registry.mainId))⟩ ::ₘ 0 := rfl
  exact Reached.result (hanswered.move (.reply hcalls)) d hd

/-- Node `false` forks identity 1 into 2, both nodes add the arc, and the fork is aborted.  The
notification of 2 reaches node `true` and is executed there, which keeps its identity-arc to 2. -/
theorem not_dismissed_disappears :
    ∃ (net net' : Network Bool) (resume : CallResult → Process),
      Network.Reached twoNodes net ∧
      net.tasks = {(false, .call 5 (notifyCall 2 9) resume)} ∧
      (net.state false).registry.get 2 = none ∧
      Relation.ReflTransGen (Network.Move twoNodes) net net' ∧
      net'.inbox = {(true, .notifyIdentityArcRemoved 2 9 6)} ∧
      ¬Gone ((net'.execute true (.of 3) (.notifyIdentityArcRemoved 2 9 6)).state true) 9 2 6 := by
  have hspawn : Network.Reached twoNodes
      ⟨fun n => State.spawn (bif n then 9 else 1) none, 0, 0, 0⟩ :=
    .spawn (fun n => bif n then 9 else 1) fun _ => none
  have hforked : Network.Reached twoNodes
      ⟨_, (false, .send (.applyMigrationDuplication 7 1 2 [])) ::ₘ 0, 0, 0⟩ :=
    (hspawn.command false (.of 2) (.prepareMigration 7 1) trivial ⟨by decide, rfl⟩).command false
      (.of 2) (.migrate 7 1 KeyedMap.empty) trivial ⟨by decide, rfl⟩
  have happlied : Network.Reached twoNodes _ :=
    hforked.result (.of 3) ⟨by decide, rfl⟩
  have hknown : Network.Reached twoNodes ⟨_, (true, resolvePeerMainId 6) ::ₘ 0, 0, 0⟩ :=
    happlied.command true (.of 3) (.addArc 6 lateArc) trivial ⟨by decide, rfl⟩
  have hboth : Network.Reached twoNodes ⟨_, (false, resolvePeerMainId 5) ::ₘ 0, 0, 0⟩ :=
    (hknown.resolve rfl (.of 3) ⟨by decide, rfl⟩).command false (.of 3) (.addArc 5 lateArc) trivial
      ⟨by decide, rfl⟩
  have hlinked : Network.Reached twoNodes _ := hboth.resolve rfl (.of 3) ⟨by decide, rfl⟩
  have haborted : Network.Reached twoNodes
      ⟨_, (false, notifyPeersArcRemoved 2 [(5, 9)] []) ::ₘ 0, 0, 0⟩ :=
    hlinked.command false (.of 3) (.abortMigration 1 2) trivial ⟨by decide, rfl⟩
  -- the three moves of the call: it is served, its handler queues the command, and answers
  have hdial : ∀ state, Network.Move twoNodes
      ⟨state, (false, notifyPeersArcRemoved 2 [(5, 9)] []) ::ₘ 0, 0, 0⟩
      ⟨state, 0, 0, ⟨false, _, true, serve (some 6) (notifyCall 2 9)⟩ ::ₘ 0⟩ :=
    fun _ => .dial rfl rfl
  have hqueue : ∀ state resume, Network.Move twoNodes
      ⟨state, 0, 0, ⟨false, resume, true, serve (some 6) (notifyCall 2 9)⟩ ::ₘ 0⟩
      ⟨state, 0, (true, .notifyIdentityArcRemoved 2 9 6) ::ₘ 0,
        ⟨false, resume, true, .reply (.ok .empty)⟩ ::ₘ 0⟩ := fun _ _ => .queue rfl
  have hreply : ∀ state resume q, Network.Move twoNodes
      ⟨state, 0, q, ⟨false, resume, true, .reply (.ok .empty)⟩ ::ₘ 0⟩
      ⟨state, (false, resume (.ok .empty)) ::ₘ 0, q, 0⟩ := fun _ _ _ => .reply rfl
  refine ⟨_, _, _, haborted, rfl, rfl,
    ((Relation.ReflTransGen.single (hdial _)).tail (hqueue _ _)).tail (hreply _ _ _), rfl, ?_⟩
  unfold Gone
  decide +kernel

end Netsukuku.Identities
