import Mathlib
import Netsukuku.PeerServices.Actor

/-!
# Who participates in which service

A node learns of the participants of an optional service from two kinds of gossip: single facts
("this g-node has a participant"), flooded, and whole snapshots of another node's map.  Both are
re-expressed from the receiver's own address before they are recorded, and what is recorded is
published on a watch channel that routing reads.

* `produceBelowLevel`, `foldToMyGranularity` — what is sent, and what the receiver makes of it.
* `PeerActor` — the actor's state with its participation maps and the published snapshot.
* `PeerActor.addParticipant`, `applyParticipant`, `applyParticipantSet` — recording.
* `snapshot_current_iff` — when the published snapshot is always the actor's own state.
-/

namespace Netsukuku

/-- Services are kept in the order of their numbers. -/
instance : LinearOrder ServiceId :=
  LinearOrder.lift' (fun s => s.get.toNat) fun a b h => by
    cases a
    cases b
    exact congrArg ServiceId.mk (UInt16.toNat_inj.mp h)

/-- Coordinates are kept in the order of their levels, then positions. -/
def HCoord.Before (a b : HCoord) : Prop :=
  a.level < b.level ∨ (a.level = b.level ∧ a.pos.toNat ≤ b.pos.toNat)

instance (a b : HCoord) : Decidable (a.Before b) := inferInstanceAs (Decidable (_ ∨ _ ∧ _))

/-- `ParticipantMap::insert`. -/
def insertParticipant (map : List HCoord) (h : HCoord) : List HCoord :=
  if h ∈ map then map else map.orderedInsert HCoord.Before h

@[simp] lemma mem_insertParticipant {map : List HCoord} {h h' : HCoord} :
    h' ∈ insertParticipant map h ↔ h' = h ∨ h' ∈ map := by
  rw [insertParticipant]
  split
  · rename_i hmem
    exact ⟨Or.inr, fun h => h.elim (fun e => e ▸ hmem) id⟩
  · exact List.mem_orderedInsert _

/-- The known participants per service. -/
abbrev Participants := KeyedMap ServiceId (List HCoord)

namespace Participants

/-- The participants of one service. -/
def of (m : Participants) (pId : ServiceId) : List HCoord := (m.get? pId).getD []

/-- `entry(p_id).or_default().insert(h)`. -/
def add (m : Participants) (pId : ServiceId) (h : HCoord) : Participants :=
  m.insertOrdered pId (insertParticipant (m.of pId) h)

lemma get?_insertOrdered (m : Participants) (pId p : ServiceId) (map : List HCoord) :
    KeyedMap.get? (m.insertOrdered pId map) p = if p = pId then some map else m.get? p := by
  rw [KeyedMap.get?_insertOrdered]
  split
  · rename_i hp
    rw [hp, KeyedMap.get?_insert_self]
  · rename_i hp
    rw [KeyedMap.get?_insert_of_ne _ _ hp]

lemma get?_add (m : Participants) (pId p : ServiceId) (h : HCoord) :
    (m.add pId h).get? p =
      if p = pId then some (insertParticipant (m.of pId) h) else m.get? p :=
  m.get?_insertOrdered pId p _

/-- Two maps that look up alike still do after the same addition. -/
lemma get?_add_congr {m m' : Participants} (h : ∀ p, m.get? p = m'.get? p) (pId p : ServiceId)
    (hc : HCoord) : (m.add pId hc).get? p = (m'.add pId hc).get? p := by
  rw [get?_add, get?_add, of, of, h pId, h p]

lemma mem_of_add {m : Participants} {pId p : ServiceId} {h h' : HCoord} :
    h' ∈ (m.add pId h).of p ↔ (p = pId ∧ h' = h) ∨ h' ∈ m.of p := by
  rw [of, get?_add]
  split
  · rename_i hp
    simp [hp]
  · rename_i hp
    simp [hp, of]

end Participants

/-- A snapshot of a node's participation maps, as exchanged between neighbours. -/
structure ParticipantSet where
  retrievedBelowLevel : ℕ
  myPos : List UInt32
  participantSet : Participants

/-- `produce_below_level`: a service left with no participant is dropped. -/
def produceBelowLevel (participantSet : Participants) (myPos : List UInt32) (belowLevel : ℕ) :
    ParticipantSet where
  retrievedBelowLevel := belowLevel
  myPos := myPos
  participantSet := participantSet.filterMapValues fun map =>
    let filtered := map.filter fun hc => decide (hc.level < belowLevel)
    if filtered = [] then none else some filtered

/-- The level of the maximum distinct g-node: from `l` down, where the two addresses part, and 0
if they do not part above it. -/
def mdgLevel (mine theirs : List UInt32) : ℕ → ℕ
  | 0 => 0
  | l + 1 => if mine[l + 1]? = theirs[l + 1]? then mdgLevel mine theirs l else l + 1

/-- `fold_to_my_granularity`: what the sender knows below the level where we part becomes one
coordinate, the sender's own there. -/
def foldToMyGranularity (myPos : List UInt32) (levels : ℕ) (incoming : ParticipantSet) :
    Outcome Empty ParticipantSet := do
  Outcome.assert "my_pos.len() == levels" (decide (myPos.length = levels))
  Outcome.assert "incoming.my_pos.len() == levels" (decide (incoming.myPos.length = levels))
  Outcome.assert "levels > 0" (decide (0 < levels))
  let mdgLvl := mdgLevel myPos incoming.myPos (levels - 1)
  let mdgPos ← Outcome.index incoming.myPos mdgLvl
  let mdgServices := (incoming.participantSet.entries.filter fun e =>
    e.2.any fun hc => decide (hc.level < mdgLvl)).map Prod.fst
  let kept := incoming.participantSet.filterMapValues fun map =>
    some (map.filter fun hc => decide (mdgLvl ≤ hc.level))
  .ok { incoming with
    participantSet := mdgServices.foldl (fun m pId => m.add pId ⟨mdgLvl, mdgPos⟩) kept }

/-- `is_fresher`. -/
def isFresher (myRetrievedBelowLevel : ℕ) (incoming : ParticipantSet) : Bool :=
  decide (myRetrievedBelowLevel < incoming.retrievedBelowLevel)

/-- What routing reads off the watch channel. -/
structure PeerSnapshot where
  retrievedBelowLevel : ℕ
  participants : Participants

/-- `RECENT_PUBLISHED_TTL`, in seconds. -/
def recentPublishedTtl : ℕ := 60

/-- `RECENT_PUBLISHED_PRUNE_AT`. -/
def recentPublishedPruneAt : ℕ := 4096

/-- The actor's state: what routing reads and writes, and the participation maps with their
copy on the watch channel. -/
structure PeerActor (V : Type) extends PeerState V where
  maxServices : ℕ
  maxParticipantsPerService : ℕ
  myServices : List ServiceId
  retrievedBelowLevel : ℕ
  recentPublished : KeyedMap (ServiceId × HCoord) ℕ
  snapshot : PeerSnapshot

/-- The commands the actor handles.  `read` is any of those that only answer. -/
inductive PeerActorCmd (V : Type) where
  | search (cmd : PeerCmd V)
  | register (pId : ServiceId) (optional : Bool)
  | applyParticipant (pId : ServiceId) (at_ : HCoord) (now : ℕ)
  | applyParticipantSet (incoming : ParticipantSet)
  | read

namespace PeerActor

variable {V : Type}

/-- `Manager::new`: nothing is known, and the channel starts with the default snapshot. -/
def new (topology : Topology) (myPos : Naddr)
    (maxServices maxParticipantsPerService retrievedBelowLevel : ℕ) : PeerActor V where
  topology := topology
  myPos := myPos
  services := KeyedMap.empty
  participantSet := KeyedMap.empty
  waiting := KeyedMap.empty
  maxServices := maxServices
  maxParticipantsPerService := maxParticipantsPerService
  myServices := []
  retrievedBelowLevel := retrievedBelowLevel
  recentPublished := KeyedMap.empty
  snapshot := ⟨0, KeyedMap.empty⟩

/-- `publish_snapshot`. -/
def publishSnapshot (s : PeerActor V) : PeerActor V :=
  { s with snapshot := ⟨s.retrievedBelowLevel, s.participantSet⟩ }

/-- `Cmd::Register`. -/
def register (s : PeerActor V) (pId : ServiceId) (optional : Bool) : PeerActor V :=
  { s with
    services := s.services.insertOrdered pId optional
    myServices := if optional ∧ pId ∉ s.myServices then s.myServices ++ [pId] else s.myServices }

/-- `add_participant`: the caps refuse only what is new; a new participant is patched into the
published snapshot. -/
def addParticipant (s : PeerActor V) (pId : ServiceId) (h : HCoord) : PeerActor V :=
  if s.myPos.pos h.level = some h.pos then s
  else if !s.participantSet.contains pId && !s.services.contains pId &&
      decide (s.maxServices ≤ s.participantSet.entries.length) then s
  else
    -- The entry of the service exists from here on, whatever follows.
    let map := Participants.of s.participantSet pId
    let s := { s with participantSet := s.participantSet.insertOrdered pId map }
    if h ∉ map ∧ s.maxParticipantsPerService ≤ map.length then s
    else if h ∈ map then s
    else
      { s with
        participantSet := Participants.add s.participantSet pId h
        snapshot := ⟨s.retrievedBelowLevel, Participants.add s.snapshot.participants pId h⟩ }

/-- `Cmd::ApplyParticipant`, and its reply: the fact to pass on, unless it was met recently. -/
def applyParticipant (s : PeerActor V) (pId : ServiceId) (at_ : HCoord) (now : ℕ) :
    PeerActor V × Option HCoord :=
  if (s.recentPublished.get? (pId, at_)).any fun until_ => decide (now < until_) then (s, none)
  else
    let recent :=
      if recentPublishedPruneAt ≤ s.recentPublished.entries.length then
        s.recentPublished.filterMapValues fun until_ => if now < until_ then some until_ else none
      else s.recentPublished
    ({ s with recentPublished := recent.insert (pId, at_) (now + recentPublishedTtl) }.addParticipant
      pId at_, some at_)

/-- The facts of a folded snapshot that `ApplyParticipantSet` records: those between what was
known before and what is known now. -/
def freshFacts (retrievedBelowLevel : ℕ) (folded : ParticipantSet) : List (ServiceId × HCoord) :=
  folded.participantSet.entries.flatMap fun e =>
    (e.2.filter fun hc => decide (retrievedBelowLevel ≤ hc.level) &&
      decide (hc.level < folded.retrievedBelowLevel)).map (Prod.mk e.1)

/-- `Cmd::ApplyParticipantSet`, and its reply: the snapshot to pass on, if the incoming one was
fresher. -/
def applyParticipantSet (s : PeerActor V) (incoming : ParticipantSet) :
    Outcome Empty (PeerActor V × Option ParticipantSet) :=
  if !isFresher s.retrievedBelowLevel incoming then .ok (s, none)
  else do
    let folded ← foldToMyGranularity s.myPos.positions s.topology.levels incoming
    let s := (freshFacts s.retrievedBelowLevel folded).foldl
      (fun s fact => s.addParticipant fact.1 fact.2) s
    let s := publishSnapshot { s with retrievedBelowLevel := folded.retrievedBelowLevel }
    .ok (s, some (produceBelowLevel s.participantSet s.myPos.positions s.retrievedBelowLevel))

/-- `produce_maps_copy`: what I know, and my own services. -/
def produceMapsCopy (s : PeerActor V) : Outcome Empty ParticipantSet := do
  let out ← s.myServices.foldlM (fun m pId => do
    let p₀ ← Outcome.index s.myPos.positions 0
    .ok (Participants.add m pId ⟨0, p₀⟩)) s.participantSet
  .ok (produceBelowLevel out s.myPos.positions s.retrievedBelowLevel)

/-- `State::handle`: the state afterwards. -/
def handle (s : PeerActor V) : PeerActorCmd V → Outcome Empty (PeerActor V)
  | .search cmd => .ok { s with toPeerState := s.toPeerState.handle cmd }
  | .register pId optional => .ok (s.register pId optional)
  | .applyParticipant pId at_ now => .ok (s.applyParticipant pId at_ now).1
  | .applyParticipantSet incoming => do
      let (s', _) ← s.applyParticipantSet incoming
      .ok s'
  | .read => .ok s

/-- What recording a fact can do: nothing, an entry for the service, or a new participant,
published at once. -/
inductive Recorded (s : PeerActor V) (pId : ServiceId) (h : HCoord) : PeerActor V → Prop where
  | same : Recorded s pId h s
  | touched (hroom : s.maxParticipantsPerService = 0 ∨ s.participantSet.get? pId ≠ none) :
      Recorded s pId h { s with
        participantSet := s.participantSet.insertOrdered pId (Participants.of s.participantSet pId) }
  | added {m : Participants} (hother : s.myPos.pos h.level ≠ some h.pos)
      (hm : ∀ p, m.get? p = (Participants.add s.participantSet pId h).get? p) :
      Recorded s pId h { s with
        participantSet := m
        snapshot := ⟨s.retrievedBelowLevel, Participants.add s.snapshot.participants pId h⟩ }

theorem addParticipant_recorded (s : PeerActor V) (pId : ServiceId) (h : HCoord) :
    Recorded s pId h (s.addParticipant pId h) := by
  rw [addParticipant]
  split
  · exact .same
  rename_i hother
  split
  · exact .same
  simp only
  split
  · rename_i hfull
    refine .touched (or_iff_not_imp_right.mpr fun hnone => ?_)
    rw [not_not] at hnone
    have hempty : Participants.of s.participantSet pId = [] := by rw [Participants.of, hnone]; rfl
    rw [hempty] at hfull
    exact Nat.le_zero.mp hfull.2
  split
  · rename_i hmem
    refine .touched (Or.inr fun hnone => ?_)
    rw [Participants.of, hnone] at hmem
    cases hmem
  · refine .added hother fun p => ?_
    rw [Participants.get?_add, Participants.get?_add, Participants.of,
      Participants.get?_insertOrdered, if_pos rfl, Option.getD_some]
    split
    · rfl
    · rename_i hp
      rw [Participants.get?_insertOrdered, if_neg hp]

/-- With no room for a participant at all, a fact about a service registered here leaves an empty
entry behind, unpublished. -/
lemma addParticipant_of_cap_zero {s : PeerActor V} {pId : ServiceId} {h : HCoord}
    (hcap : s.maxParticipantsPerService = 0) (hother : s.myPos.pos h.level ≠ some h.pos)
    (hservice : s.services.contains pId = true) (hnone : s.participantSet.get? pId = none) :
    s.addParticipant pId h =
      { s with participantSet := s.participantSet.insertOrdered pId [] } := by
  have hempty : Participants.of s.participantSet pId = [] := by
    rw [Participants.of, hnone]
    rfl
  simp [addParticipant, hother, hservice, hempty, hcap]

/-- The published snapshot is the actor's state. -/
def Current (s : PeerActor V) : Prop :=
  s.snapshot.retrievedBelowLevel = s.retrievedBelowLevel ∧
    ∀ p, s.snapshot.participants.get? p = s.participantSet.get? p

lemma current_publishSnapshot (s : PeerActor V) : s.publishSnapshot.Current :=
  ⟨rfl, fun _ => rfl⟩

/-- Recording a fact keeps the snapshot current, if a service may have participants at all. -/
lemma Recorded.current {s s' : PeerActor V} {pId : ServiceId} {h : HCoord}
    (hrec : Recorded s pId h s') (hcap : 0 < s.maxParticipantsPerService) (hs : s.Current) :
    s'.Current := by
  cases hrec with
  | same => exact hs
  | touched hroom =>
      refine ⟨hs.1, fun p => ?_⟩
      rw [hs.2, Participants.get?_insertOrdered]
      split
      · rename_i hp
        subst hp
        obtain ⟨map, hmap⟩ := Option.ne_none_iff_exists'.mp (hroom.resolve_left (by omega))
        rw [Participants.of, hmap, Option.getD_some]
      · rfl
  | added hother hm =>
      refine ⟨rfl, fun p => ?_⟩
      rw [hm]
      exact Participants.get?_add_congr hs.2 pId p h

lemma Recorded.cap {s s' : PeerActor V} {pId : ServiceId} {h : HCoord}
    (hrec : Recorded s pId h s') :
    s'.maxParticipantsPerService = s.maxParticipantsPerService := by
  cases hrec <;> rfl

/-- The part of the invariant that outlives the commands: a cap that lets a participant in, and a
current snapshot. -/
def Sound (s : PeerActor V) : Prop := 0 < s.maxParticipantsPerService ∧ s.Current

lemma Sound.addParticipant {s : PeerActor V} (hs : s.Sound) (pId : ServiceId) (h : HCoord) :
    (s.addParticipant pId h).Sound := by
  have hrec := addParticipant_recorded s pId h
  exact ⟨hrec.cap ▸ hs.1, hrec.current hs.1 hs.2⟩

lemma Sound.foldl {s : PeerActor V} (hs : s.Sound) (facts : List (ServiceId × HCoord)) :
    (facts.foldl (fun s fact => s.addParticipant fact.1 fact.2) s).Sound := by
  induction facts generalizing s with
  | nil => exact hs
  | cons fact facts ih => exact ih (hs.addParticipant fact.1 fact.2)

/-- Each command keeps a current snapshot current. -/
lemma Sound.handle {s s' : PeerActor V} {cmd : PeerActorCmd V} (hs : s.Sound)
    (h : s.handle cmd = .ok s') : s'.Sound := by
  cases cmd with
  | search cmd =>
      cases h
      refine ⟨hs.1, hs.2.1, fun p => ?_⟩
      rw [PeerState.handle_participantSet]
      exact hs.2.2 p
  | register pId optional =>
      cases h
      exact hs
  | applyParticipant pId at_ now =>
      cases h
      rw [applyParticipant]
      split
      · exact hs
      · refine Sound.addParticipant ?_ pId at_
        exact hs
  | applyParticipantSet incoming =>
      obtain ⟨⟨s₁, fwd⟩, h₁, h⟩ := Outcome.bind_eq_ok.mp h
      cases h
      rw [applyParticipantSet] at h₁
      split at h₁
      · cases h₁
        exact hs
      · obtain ⟨folded, -, h₁⟩ := Outcome.bind_eq_ok.mp h₁
        cases h₁
        exact ⟨(hs.foldl _).1, current_publishSnapshot _⟩
  | read =>
      cases h
      exact hs

/-- A run of the actor: commands handled one after the other, none of them panicking. -/
def run (s : PeerActor V) (cmds : List (PeerActorCmd V)) : Outcome Empty (PeerActor V) :=
  cmds.foldlM handle s

end PeerActor

open PeerActor

/-- The published snapshot is the actor's state after every run of commands exactly when the
actor starts with nothing retrieved, as the channel does, and a service may have participants. -/
theorem snapshot_current_iff {V : Type} (topology : Topology) (myPos : Naddr)
    (maxServices maxParticipantsPerService retrievedBelowLevel : ℕ) :
    (∀ (cmds : List (PeerActorCmd V)) (s : PeerActor V),
        (PeerActor.new topology myPos maxServices maxParticipantsPerService
          retrievedBelowLevel).run cmds = .ok s → s.Current) ↔
      retrievedBelowLevel = 0 ∧ 0 < maxParticipantsPerService := by
  constructor
  · intro h
    refine ⟨((h [] _ rfl).1).symm, Nat.pos_of_ne_zero fun hcap => ?_⟩
    -- With a cap of 0 a fact about a registered service leaves an empty entry behind.
    obtain ⟨q, hq⟩ : ∃ q, myPos.pos 0 ≠ some q := by
      cases hp : myPos.pos 0 with
      | none => exact ⟨0, by simp⟩
      | some p => exact ⟨p + 1, by simp⟩
    have hrun := h [.register ⟨0⟩ true, .applyParticipant ⟨0⟩ ⟨0, q⟩ 0] _ rfl
    have hentry := hrun.2 ⟨0⟩
    simp only [applyParticipant, register, PeerActor.new, KeyedMap.get?_empty, Option.any_none,
      Bool.false_eq_true, if_false] at hentry
    rw [addParticipant_of_cap_zero hcap hq rfl rfl] at hentry
    cases hentry
  · rintro ⟨rfl, hcap⟩ cmds s hrun
    have hsound : (PeerActor.new topology myPos maxServices maxParticipantsPerService 0 :
        PeerActor V).Sound := ⟨hcap, rfl, fun _ => rfl⟩
    exact (Outcome.foldlM_preserves (P := Sound) hsound
      (fun s cmd s' hs _ hstep => hs.handle hstep) hrun).2

/-- A node that starts with complete knowledge, as the founder of a network does, is published as
one that knows nothing. -/
theorem not_snapshot_current_founder :
    ∃ (topology : Topology) (myPos : Naddr) (s : PeerActor Unit),
      myPos.topology = topology ∧
        (PeerActor.new topology myPos 256 8192 topology.levels).run [] = .ok s ∧ ¬ s.Current := by
  refine ⟨⟨[4], by simp, by simp⟩, ⟨⟨[4], by simp, by simp⟩, [0], rfl⟩, _, rfl, rfl, ?_⟩
  intro h
  cases h.1

end Netsukuku
