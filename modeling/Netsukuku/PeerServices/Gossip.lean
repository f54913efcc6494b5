import Mathlib
import Netsukuku.PeerServices.Participation
import Netsukuku.PeerServices.TupleSpec

/-!
# What gossip says is true

Facts about participants travel from node to node, and every node they pass re-expresses them from
its own address: a single fact by `convertTupleGnode` and back into a tuple, a whole snapshot by
folding what lies below the level where sender and receiver part.  Whatever way a fact took, what
is recorded at its end is still true there.

* `GossipNet`, `GossipNet.Step` — any number of nodes, with every message ever sent on the table:
  each may be delivered to anybody, late, often or never.
* `GossipInv` — every fact under way, every snapshot under way and every fact recorded names a
  g-node that holds a node registered for the service.
* `gossip_true` — so no node ever records a falsehood.
-/

namespace Netsukuku

namespace PeerActor

variable {V : Type}

/-- The address and the registrations of a node are not touched by what it records. -/
lemma addParticipant_frame (s : PeerActor V) (pId : ServiceId) (h : HCoord) :
    (s.addParticipant pId h).myPos = s.myPos ∧ (s.addParticipant pId h).topology = s.topology ∧
      (s.addParticipant pId h).myServices = s.myServices := by
  have hrec := addParticipant_recorded s pId h
  generalize s.addParticipant pId h = s' at hrec ⊢
  cases hrec <;> exact ⟨rfl, rfl, rfl⟩

/-- A participant recorded was there before, or is the new fact and not a g-node of mine. -/
lemma mem_addParticipant {s : PeerActor V} {pId p : ServiceId} {h h' : HCoord}
    (hmem : h' ∈ Participants.of (s.addParticipant pId h).participantSet p) :
    h' ∈ Participants.of s.participantSet p ∨
      (p = pId ∧ h' = h ∧ s.myPos.pos h.level ≠ some h.pos) := by
  have hrec := addParticipant_recorded s pId h
  generalize s.addParticipant pId h = s' at hrec hmem
  cases hrec with
  | same => exact Or.inl hmem
  | touched hroom =>
      left
      rw [Participants.of, Participants.get?_insertOrdered] at hmem
      split at hmem
      · rename_i hp
        rw [hp]
        exact hmem
      · exact hmem
  | added hother hm =>
      rw [Participants.of, hm] at hmem
      rcases Participants.mem_of_add.mp hmem with ⟨hp, rfl⟩ | hmem
      · exact Or.inr ⟨hp, rfl, hother⟩
      · exact Or.inl hmem

/-- The same for a list of facts recorded one after the other. -/
lemma mem_foldl_addParticipant {s : PeerActor V} {facts : List (ServiceId × HCoord)}
    {p : ServiceId} {h : HCoord}
    (hmem : h ∈ Participants.of
      (facts.foldl (fun s fact => s.addParticipant fact.1 fact.2) s).participantSet p) :
    h ∈ Participants.of s.participantSet p ∨
      ((p, h) ∈ facts ∧ s.myPos.pos h.level ≠ some h.pos) := by
  induction facts generalizing s with
  | nil => exact Or.inl hmem
  | cons fact facts ih =>
      rcases ih hmem with hmem | ⟨hmem, hother⟩
      · rcases mem_addParticipant hmem with hmem | ⟨rfl, rfl, hother⟩
        · exact Or.inl hmem
        · exact Or.inr ⟨List.mem_cons_self, hother⟩
      · rw [(s.addParticipant_frame fact.1 fact.2).1] at hother
        exact Or.inr ⟨List.mem_cons_of_mem _ hmem, hother⟩

lemma foldl_addParticipant_frame (s : PeerActor V) (facts : List (ServiceId × HCoord)) :
    (facts.foldl (fun s fact => s.addParticipant fact.1 fact.2) s).myPos = s.myPos ∧
      (facts.foldl (fun s fact => s.addParticipant fact.1 fact.2) s).topology = s.topology ∧
      (facts.foldl (fun s fact => s.addParticipant fact.1 fact.2) s).myServices =
        s.myServices := by
  induction facts generalizing s with
  | nil => exact ⟨rfl, rfl, rfl⟩
  | cons fact facts ih =>
      obtain ⟨h1, h2, h3⟩ := s.addParticipant_frame fact.1 fact.2
      obtain ⟨i1, i2, i3⟩ := ih (s.addParticipant fact.1 fact.2)
      exact ⟨i1.trans h1, i2.trans h2, i3.trans h3⟩

/-- What `ApplyParticipant` does, as far as the participants go. -/
lemma applyParticipant_frame (s : PeerActor V) (pId : ServiceId) (at_ : HCoord) (now : ℕ) :
    (s.applyParticipant pId at_ now).1.myPos = s.myPos ∧
      (s.applyParticipant pId at_ now).1.topology = s.topology ∧
      (s.applyParticipant pId at_ now).1.myServices = s.myServices ∧
      ∀ p h, h ∈ Participants.of (s.applyParticipant pId at_ now).1.participantSet p →
        h ∈ Participants.of s.participantSet p ∨ (p = pId ∧ h = at_) := by
  rw [applyParticipant]
  split
  · exact ⟨rfl, rfl, rfl, fun p h hmem => Or.inl hmem⟩
  · simp only
    refine ⟨(addParticipant_frame _ pId at_).1, (addParticipant_frame _ pId at_).2.1,
      (addParticipant_frame _ pId at_).2.2, fun p h hmem => ?_⟩
    rcases mem_addParticipant hmem with hmem | ⟨hp, hh, -⟩
    · exact Or.inl hmem
    · exact Or.inr ⟨hp, hh⟩

/-- What `ApplyParticipantSet` does: nothing, or it records facts of the folded snapshot and
passes on what it then knows. -/
lemma applyParticipantSet_eq_ok {s s' : PeerActor V} {incoming : ParticipantSet}
    {forward : Option ParticipantSet} (h : s.applyParticipantSet incoming = .ok (s', forward)) :
    (s' = s ∧ forward = none) ∨
      ∃ folded, foldToMyGranularity s.myPos.positions s.topology.levels incoming = .ok folded ∧
        s'.myPos = s.myPos ∧ s'.topology = s.topology ∧ s'.myServices = s.myServices ∧
        (∀ p hc, hc ∈ Participants.of s'.participantSet p →
          hc ∈ Participants.of s.participantSet p ∨
            (hc ∈ Participants.of folded.participantSet p ∧ s.myPos.pos hc.level ≠ some hc.pos)) ∧
        forward = some
          (produceBelowLevel s'.participantSet s'.myPos.positions s'.retrievedBelowLevel) := by
  rw [applyParticipantSet] at h
  split at h
  · cases h
    exact Or.inl ⟨rfl, rfl⟩
  · obtain ⟨folded, hfolded, h⟩ := Outcome.bind_eq_ok.mp h
    cases h
    obtain ⟨h1, h2, h3⟩ := foldl_addParticipant_frame s (freshFacts s.retrievedBelowLevel folded)
    refine Or.inr ⟨folded, hfolded, h1, h2, h3, fun p hc hmem => ?_, rfl⟩
    rcases mem_foldl_addParticipant hmem with hmem | ⟨hfact, hother⟩
    · exact Or.inl hmem
    · refine Or.inr ⟨?_, hother⟩
      rw [freshFacts, List.mem_flatMap] at hfact
      obtain ⟨⟨p', map⟩, hentry, hfact⟩ := hfact
      obtain ⟨hc', hc'mem, heq⟩ := List.mem_map.mp hfact
      cases heq
      rw [Participants.of, KeyedMap.mem_entries_iff.mp hentry]
      exact (List.mem_filter.mp hc'mem).1

end PeerActor

/-! ## What is sent -/

/-- A snapshot says nothing its sender does not know. -/
lemma mem_produceBelowLevel {m : Participants} {myPos : List UInt32} {belowLevel : ℕ}
    {p : ServiceId} {h : HCoord}
    (hmem : h ∈ Participants.of (produceBelowLevel m myPos belowLevel).participantSet p) :
    h ∈ m.of p := by
  rw [Participants.of, produceBelowLevel, KeyedMap.get?_filterMapValues] at hmem
  rw [Participants.of]
  cases hget : m.get? p with
  | none =>
      rw [hget] at hmem
      exact hmem
  | some map =>
      rw [hget] at hmem
      simp only [Option.bind_some] at hmem
      split at hmem
      · cases hmem
      · exact (List.mem_filter.mp hmem).1

/-- What a node tells about itself and others when asked. -/
lemma mem_produceMapsCopy {V : Type} {s : PeerActor V} {maps : ParticipantSet}
    (hmaps : s.produceMapsCopy = .ok maps) :
    maps.myPos = s.myPos.positions ∧ ∀ p h, h ∈ Participants.of maps.participantSet p →
      h ∈ Participants.of s.participantSet p ∨
        (p ∈ s.myServices ∧ h.level = 0 ∧ s.myPos.positions[0]? = some h.pos) := by
  obtain ⟨out, hout, hmaps⟩ := Outcome.bind_eq_ok.mp hmaps
  cases hmaps
  refine ⟨rfl, fun p h hmem => ?_⟩
  have hinv := Outcome.foldlM_preserves
    (P := fun m : Participants => ∀ p h, h ∈ m.of p → h ∈ Participants.of s.participantSet p ∨
      (p ∈ s.myServices ∧ h.level = 0 ∧ s.myPos.positions[0]? = some h.pos))
    (fun p h hmem => Or.inl hmem) ?_ hout
  · exact hinv p h (mem_produceBelowLevel hmem)
  · intro m pId m' hm hpId hstep p h hmem
    obtain ⟨p₀, hp₀, hstep⟩ := Outcome.bind_eq_ok.mp hstep
    cases hstep
    rcases Participants.mem_of_add.mp hmem with ⟨rfl, rfl⟩ | hmem
    · exact Or.inr ⟨hpId, rfl, Outcome.index_eq_ok.mp hp₀⟩
    · exact hm p h hmem

/-! ## What is made of it -/

/-- Above the maximum distinct g-node the two addresses agree. -/
lemma mdgLevel_agree {mine theirs : List UInt32} {l i : ℕ} (hlt : mdgLevel mine theirs l < i)
    (hle : i ≤ l) : mine[i]? = theirs[i]? := by
  induction l with
  | zero => omega
  | succ l ih =>
      rw [mdgLevel] at hlt
      split at hlt
      · rename_i heq
        rcases Nat.lt_succ_iff_lt_or_eq.mp (Nat.lt_succ_of_le hle) with hi | rfl
        · exact ih hlt (Nat.lt_succ_iff.mp hi)
        · exact heq
      · omega

/-- What folding leaves of a snapshot: what it says from the level where we part on, and the
sender's own g-node at that level where it says something below. -/
lemma mem_foldToMyGranularity {myPos : List UInt32} {levels : ℕ} {incoming folded : ParticipantSet}
    (hfold : foldToMyGranularity myPos levels incoming = .ok folded) :
    ∃ mdg, (∀ i, mdg < i → myPos[i]? = incoming.myPos[i]?) ∧
      ∀ p h, h ∈ Participants.of folded.participantSet p →
        (h ∈ Participants.of incoming.participantSet p ∧ mdg ≤ h.level) ∨
          (h.level = mdg ∧ incoming.myPos[mdg]? = some h.pos ∧
            ∃ h' ∈ Participants.of incoming.participantSet p, h'.level < mdg) := by
  obtain ⟨_, hmine, hfold⟩ := Outcome.bind_eq_ok.mp hfold
  obtain ⟨_, htheirs, hfold⟩ := Outcome.bind_eq_ok.mp hfold
  obtain ⟨_, -, hfold⟩ := Outcome.bind_eq_ok.mp hfold
  obtain ⟨mdgPos, hpos, hfold⟩ := Outcome.bind_eq_ok.mp hfold
  rw [Outcome.index_eq_ok] at hpos
  have hlen : myPos.length = levels := of_decide_eq_true (Outcome.assert_eq_ok.mp hmine)
  have hlen' : incoming.myPos.length = levels := of_decide_eq_true (Outcome.assert_eq_ok.mp htheirs)
  cases hfold
  refine ⟨mdgLevel myPos incoming.myPos (levels - 1), fun i hi => ?_, ?_⟩
  · by_cases hin : i ≤ levels - 1
    · exact mdgLevel_agree hi hin
    · rw [List.getElem?_eq_none (show myPos.length ≤ i by omega),
        List.getElem?_eq_none (show incoming.myPos.length ≤ i by omega)]
  · -- The kept part, and then one addition per service with something below the level.
    have hkept : ∀ p h, h ∈ Participants.of (incoming.participantSet.filterMapValues fun map =>
        some (map.filter fun hc => decide
          (mdgLevel myPos incoming.myPos (levels - 1) ≤ hc.level))) p →
        h ∈ Participants.of incoming.participantSet p ∧
          mdgLevel myPos incoming.myPos (levels - 1) ≤ h.level := by
      intro p h hmem
      rw [Participants.of, KeyedMap.get?_filterMapValues] at hmem
      rw [Participants.of]
      cases hget : incoming.participantSet.get? p with
      | none =>
          rw [hget] at hmem
          cases hmem
      | some map =>
          rw [hget] at hmem
          simpa using hmem
    have hadd : ∀ (services : List ServiceId) (m : Participants) p h,
        h ∈ Participants.of (services.foldl (fun m pId =>
          m.add pId ⟨mdgLevel myPos incoming.myPos (levels - 1), mdgPos⟩) m) p →
        h ∈ m.of p ∨ (p ∈ services ∧
          h = ⟨mdgLevel myPos incoming.myPos (levels - 1), mdgPos⟩) := by
      intro services
      induction services with
      | nil => exact fun m p h hmem => Or.inl hmem
      | cons pId services ih =>
          intro m p h hmem
          rcases ih _ p h hmem with hmem | ⟨hp, rfl⟩
          · rcases Participants.mem_of_add.mp hmem with ⟨rfl, rfl⟩ | hmem
            · exact Or.inr ⟨List.mem_cons_self, rfl⟩
            · exact Or.inl hmem
          · exact Or.inr ⟨List.mem_cons_of_mem _ hp, rfl⟩
    intro p h hmem
    rcases hadd _ _ p h hmem with hmem | ⟨hp, rfl⟩
    · exact Or.inl (hkept p h hmem)
    · obtain ⟨⟨p', map⟩, hentry, rfl⟩ := List.mem_map.mp hp
      rw [List.mem_filter, List.any_eq_true] at hentry
      obtain ⟨hentry, h', hh', hlt⟩ := hentry
      refine Or.inr ⟨rfl, hpos, h', ?_, of_decide_eq_true hlt⟩
      rw [Participants.of, KeyedMap.mem_entries_iff.mp hentry]
      exact hh'

/-- Folding keeps a snapshot true: what holds as seen from the sender holds, folded, as seen from
the receiver. -/
lemma inGnode_fold {myPos n : List UInt32} {theirs : List UInt32} {mdg : ℕ} {h : HCoord}
    (hagree : ∀ i, mdg < i → myPos[i]? = theirs[i]?) (hle : mdg ≤ h.level)
    (hn : InGnode theirs h n) : InGnode myPos h n :=
  ⟨hn.1, fun l hl => (hn.2 l hl).trans (hagree l (lt_of_le_of_lt hle hl)).symm⟩

/-! ## The network -/

/-- Nodes that gossip, and every fact and every snapshot sent so far. -/
structure GossipNet (ι V : Type) where
  node : ι → PeerActor V
  facts : Set (ServiceId × TupleGNode)
  maps : Set ParticipantSet

namespace GossipNet

variable {ι V : Type} [DecidableEq ι]

def setNode (net : GossipNet ι V) (i : ι) (s : PeerActor V) : GossipNet ι V :=
  { net with node := Function.update net.node i s }

/-- One event.  A message is delivered by leaving it where it is, so that it can be late, come
twice, or reach somebody else. -/
inductive Step : GossipNet ι V → GossipNet ι V → Prop where
  /-- A service is registered. -/
  | register (net : GossipNet ι V) (i : ι) (pId : ServiceId) (optional : Bool) :
      Step net (net.setNode i ((net.node i).register pId optional))
  /-- An optional service of `i` is announced, at its registration or again later. -/
  | announce (net : GossipNet ι V) (i : ι) (pId : ServiceId) (p₀ : UInt32) (gn : TupleGNode)
      (hservice : pId ∈ (net.node i).myServices)
      (hp₀ : (net.node i).myPos.positions[0]? = some p₀)
      (hgn : makeTupleGnode (net.node i).topology (net.node i).myPos.positions ⟨0, p₀⟩
        (net.node i).topology.levels = .ok gn) :
      Step net { net with facts := insert (pId, gn) net.facts }
  /-- `handle_set_participant` at `i`: the fact is recorded and passed on. -/
  | setParticipant (net : GossipNet ι V) (i : ι) (pId : ServiceId) (tuple : TupleGNode)
      (relation : GNodeRelation) (at_ : HCoord) (now : ℕ) (hmem : (pId, tuple) ∈ net.facts)
      (hconvert : convertTupleGnode (net.node i).myPos.positions tuple = .ok (relation, at_))
      (hrelation : relation ≠ .mine) :
      Step net { net.setNode i ((net.node i).applyParticipant pId at_ now).1 with
        facts := net.facts ∪ {f | f.1 = pId ∧
          ((net.node i).applyParticipant pId at_ now).2 = some at_ ∧
          makeTupleGnode (net.node i).topology (net.node i).myPos.positions at_
            (net.node i).topology.levels = .ok f.2} }
  /-- `i` answers `ask_participant_maps`. -/
  | askMaps (net : GossipNet ι V) (i : ι) (maps : ParticipantSet)
      (hmaps : (net.node i).produceMapsCopy = .ok maps) :
      Step net { net with maps := insert maps net.maps }
  /-- `handle_give_participant_maps` at `i`, or the answer to a question of its own: the snapshot
  is folded in and, if it was fresher, passed on. -/
  | giveMaps (net : GossipNet ι V) (i : ι) (maps : ParticipantSet) (s : PeerActor V)
      (forward : Option ParticipantSet) (hmem : maps ∈ net.maps)
      (happly : (net.node i).applyParticipantSet maps = .ok (s, forward)) :
      Step net { net.setNode i s with maps := net.maps ∪ {m | forward = some m} }
  /-- A search at `i` goes on. -/
  | search (net : GossipNet ι V) (i : ι) (cmd : PeerCmd V) :
      Step net (net.setNode i
        { net.node i with toPeerState := (net.node i).toPeerState.handle cmd })

/-- The nodes before any gossip: each with its address and its own limits. -/
def start (t : Topology) (addr : ι → Naddr)
    (maxServices maxParticipantsPerService retrievedBelowLevel : ι → ℕ) : GossipNet ι V where
  node i := PeerActor.new t (addr i) (maxServices i) (maxParticipantsPerService i)
    (retrievedBelowLevel i)
  facts := ∅
  maps := ∅

/-- Some node registered for the service is in the g-node `h` as seen from `myPos`. -/
def Populated (net : GossipNet ι V) (addr : ι → Naddr) (pId : ServiceId) (myPos : List UInt32)
    (h : HCoord) : Prop :=
  ∃ j, pId ∈ (net.node j).myServices ∧ InGnode myPos h (addr j).positions

end GossipNet

open GossipNet

/-- Everything said and recorded is true. -/
structure GossipInv {ι V : Type} (t : Topology) (addr : ι → Naddr) (net : GossipNet ι V) :
    Prop where
  address : ∀ i, (net.node i).myPos = addr i
  topology : ∀ i, (net.node i).topology = t
  recorded : ∀ i p h, h ∈ Participants.of (net.node i).participantSet p →
    (addr i).pos h.level ≠ some h.pos ∧ Populated net addr p (addr i).positions h
  facts : ∀ p tuple, (p, tuple) ∈ net.facts →
    tuple.top = t.levels ∧ ∃ j, p ∈ (net.node j).myServices ∧ tuple.Contains (addr j).positions
  maps : ∀ maps ∈ net.maps, ∀ p h, h ∈ Participants.of maps.participantSet p →
    Populated net addr p maps.myPos h

namespace GossipInv

variable {ι V : Type} {t : Topology} {addr : ι → Naddr} {net net' : GossipNet ι V}

/-- The rule for a step: registrations stay, and what is new was true before. -/
lemma of_new (h : GossipInv t addr net) (address : ∀ i, (net'.node i).myPos = (net.node i).myPos)
    (topology : ∀ i, (net'.node i).topology = (net.node i).topology)
    (services : ∀ j p, p ∈ (net.node j).myServices → p ∈ (net'.node j).myServices)
    (recorded : ∀ i p hc, hc ∈ Participants.of (net'.node i).participantSet p →
      hc ∈ Participants.of (net.node i).participantSet p ∨
        ((addr i).pos hc.level ≠ some hc.pos ∧ Populated net addr p (addr i).positions hc))
    (facts : ∀ p tuple, (p, tuple) ∈ net'.facts → (p, tuple) ∈ net.facts ∨
      (tuple.top = t.levels ∧ ∃ j, p ∈ (net.node j).myServices ∧
        tuple.Contains (addr j).positions))
    (maps : ∀ m ∈ net'.maps, m ∈ net.maps ∨ ∀ p hc, hc ∈ Participants.of m.participantSet p →
      Populated net addr p m.myPos hc) : GossipInv t addr net' := by
  have hpop : ∀ {p myPos hc}, Populated net addr p myPos hc → Populated net' addr p myPos hc := by
    rintro p myPos hc ⟨j, hj, hin⟩
    exact ⟨j, services j p hj, hin⟩
  refine
    { address := fun i => (address i).trans (h.address i)
      topology := fun i => (topology i).trans (h.topology i)
      recorded := fun i p hc hmem => ?_
      facts := fun p tuple hmem => ?_
      maps := fun m hm p hc hmem => ?_ }
  · rcases recorded i p hc hmem with hmem | ⟨hother, htrue⟩
    · exact ⟨(h.recorded i p hc hmem).1, hpop (h.recorded i p hc hmem).2⟩
    · exact ⟨hother, hpop htrue⟩
  · have htrue := (facts p tuple hmem).elim (h.facts p tuple) id
    obtain ⟨htop, j, hj, hin⟩ := htrue
    exact ⟨htop, j, services j p hj, hin⟩
  · rcases maps m hm with hm | hm
    · exact hpop (h.maps m hm p hc hmem)
    · exact hpop (hm p hc hmem)

/-- A fact received, as the receiver sees it. -/
lemma populated_convert (h : GossipInv t addr net) (htop : ∀ i, (addr i).topology = t) {i : ι}
    {p : ServiceId} {tuple : TupleGNode} {relation : GNodeRelation} {at_ : HCoord}
    (hmem : (p, tuple) ∈ net.facts)
    (hconvert : convertTupleGnode (net.node i).myPos.positions tuple = .ok (relation, at_))
    (hrelation : relation ≠ .mine) :
    (addr i).pos at_.level ≠ some at_.pos ∧ Populated net addr p (addr i).positions at_ := by
  have hlen : ∀ k, (addr k).positions.length = t.levels := fun k => by
    rw [(addr k).length_positions, htop k]
  obtain ⟨htuple, j, hj, hcontains⟩ := h.facts p tuple hmem
  rw [h.address i] at hconvert
  obtain ⟨hin, hother⟩ := inGnode_convertTupleGnode hconvert hrelation
    (htuple.trans (hlen i).symm) ((hlen j).trans (hlen i).symm) hcontains
  exact ⟨hother, j, hj, hin⟩

/-- A true fact, put back into a tuple. -/
lemma fact_of_populated (h : GossipInv t addr net) (htop : ∀ i, (addr i).topology = t) {i : ι}
    {p : ServiceId} {hc : HCoord} {gn : TupleGNode}
    (hpop : Populated net addr p (addr i).positions hc)
    (hgn : makeTupleGnode (net.node i).topology (net.node i).myPos.positions hc
      (net.node i).topology.levels = .ok gn) :
    gn.top = t.levels ∧ ∃ j, p ∈ (net.node j).myServices ∧ gn.Contains (addr j).positions := by
  obtain ⟨j, hj, hin⟩ := hpop
  have hlen : t.levels = (addr i).positions.length := by
    rw [(addr i).length_positions, htop i]
  rw [h.topology i, h.address i, hlen] at hgn
  refine ⟨?_, j, hj, contains_makeTupleGnode hgn hin⟩
  rw [hlen]
  exact (positions_makeTupleGnode hgn).2.1

/-- A snapshot received, folded to the receiver's granularity. -/
lemma populated_fold (h : GossipInv t addr net) {i : ι} {maps folded : ParticipantSet}
    (hmaps : maps ∈ net.maps)
    (hfold : foldToMyGranularity (net.node i).myPos.positions (net.node i).topology.levels maps =
      .ok folded) (p : ServiceId) (hc : HCoord)
    (hmem : hc ∈ Participants.of folded.participantSet p) :
    Populated net addr p (addr i).positions hc := by
  rw [h.address i] at hfold
  obtain ⟨mdg, hagree, hfolded⟩ := mem_foldToMyGranularity hfold
  rcases hfolded p hc hmem with ⟨hmem, hle⟩ | ⟨hlevel, hpos, h', hmem, hlt⟩
  · obtain ⟨j, hj, hin⟩ := h.maps maps hmaps p hc hmem
    exact ⟨j, hj, inGnode_fold hagree hle hin⟩
  · -- What lies below the level where we part lies in the sender's own g-node there.
    obtain ⟨j, hj, hin⟩ := h.maps maps hmaps p h' hmem
    refine ⟨j, hj, ?_, fun l hl => ?_⟩
    · rw [hlevel, hin.2 mdg hlt, hpos]
    · rw [hin.2 l (by omega), hagree l (by omega)]

/-- A node is in its own g-node of level 0. -/
lemma inGnode_self {myPos : List UInt32} {hc : HCoord} (hlevel : hc.level = 0)
    (hpos : myPos[0]? = some hc.pos) : InGnode myPos hc myPos :=
  ⟨by rw [hlevel]; exact hpos, fun _ _ => rfl⟩

/-- Nothing said is nothing false. -/
lemma start (t : Topology) (addr : ι → Naddr)
    (maxServices maxParticipantsPerService retrievedBelowLevel : ι → ℕ) :
    GossipInv t addr
      (GossipNet.start t addr maxServices maxParticipantsPerService retrievedBelowLevel :
        GossipNet ι V) where
  address _ := rfl
  topology _ := rfl
  recorded _ _ _ hmem := by cases hmem
  facts _ _ hmem := by cases hmem
  maps _ hm := by cases hm

variable [DecidableEq ι]

/-- The same when one node changes, keeping its address and its registrations. -/
lemma of_setNode (h : GossipInv t addr net) {i : ι} {s : PeerActor V}
    {newFacts : Set (ServiceId × TupleGNode)} {newMaps : Set ParticipantSet}
    (address : s.myPos = (net.node i).myPos) (topology : s.topology = (net.node i).topology)
    (services : ∀ p ∈ (net.node i).myServices, p ∈ s.myServices)
    (recorded : ∀ p hc, hc ∈ Participants.of s.participantSet p →
      hc ∈ Participants.of (net.node i).participantSet p ∨
        ((addr i).pos hc.level ≠ some hc.pos ∧ Populated net addr p (addr i).positions hc))
    (facts : ∀ p tuple, (p, tuple) ∈ newFacts → (p, tuple) ∈ net.facts ∨
      (tuple.top = t.levels ∧ ∃ j, p ∈ (net.node j).myServices ∧
        tuple.Contains (addr j).positions))
    (maps : ∀ m ∈ newMaps, m ∈ net.maps ∨ ∀ p hc, hc ∈ Participants.of m.participantSet p →
      Populated net addr p m.myPos hc) :
    GossipInv t addr ⟨Function.update net.node i s, newFacts, newMaps⟩ := by
  have hnode : ∀ j, (j = i ∧ Function.update net.node i s j = s) ∨
      Function.update net.node i s j = net.node j := by
    intro j
    rcases eq_or_ne j i with rfl | hj
    · exact Or.inl ⟨rfl, Function.update_self _ _ _⟩
    · exact Or.inr (Function.update_of_ne hj _ _)
  refine h.of_new (fun j => ?_) (fun j => ?_) (fun j p hp => ?_) (fun j p hc hmem => ?_) facts maps
  · show (Function.update net.node i s j).myPos = _
    rcases hnode j with ⟨rfl, hj⟩ | hj
    · rw [hj, address]
    · rw [hj]
  · show (Function.update net.node i s j).topology = _
    rcases hnode j with ⟨rfl, hj⟩ | hj
    · rw [hj, topology]
    · rw [hj]
  · show p ∈ (Function.update net.node i s j).myServices
    rcases hnode j with ⟨rfl, hj⟩ | hj
    · rw [hj]
      exact services p hp
    · rw [hj]
      exact hp
  · replace hmem : hc ∈ Participants.of (Function.update net.node i s j).participantSet p := hmem
    rcases hnode j with ⟨rfl, hj⟩ | hj
    · rw [hj] at hmem
      exact recorded p hc hmem
    · rw [hj] at hmem
      exact Or.inl hmem

/-- Every event keeps everything true. -/
lemma step (h : GossipInv t addr net) (htop : ∀ i, (addr i).topology = t)
    (hstep : Step net net') : GossipInv t addr net' := by
  cases hstep with
  | register i pId optional =>
      refine h.of_setNode rfl rfl (fun p hp => ?_) (fun p hc hmem => Or.inl hmem)
        (fun p tuple hmem => Or.inl hmem) (fun m hm => Or.inl hm)
      simp only [PeerActor.register]
      split
      · exact List.mem_append_left _ hp
      · exact hp
  | announce i pId p₀ gn hservice hp₀ hgn =>
      refine h.of_new (fun _ => rfl) (fun _ => rfl) (fun _ _ hp => hp)
        (fun _ _ _ hmem => Or.inl hmem) (fun p tuple hmem => ?_) (fun m hm => Or.inl hm)
      rcases Set.mem_insert_iff.mp hmem with heq | hmem
      · cases heq
        rw [h.address i] at hp₀
        exact Or.inr (h.fact_of_populated htop ⟨i, hservice, inGnode_self rfl hp₀⟩ hgn)
      · exact Or.inl hmem
  | setParticipant i pId tuple relation at_ now hmem hconvert hrelation =>
      obtain ⟨hother, hpop⟩ := h.populated_convert htop hmem hconvert hrelation
      obtain ⟨h1, h2, h3, h4⟩ := (net.node i).applyParticipant_frame pId at_ now
      refine h.of_setNode h1 h2 (fun p hp => h3 ▸ hp) (fun p hc hmem => ?_)
        (fun p gn hgn => ?_) (fun m hm => Or.inl hm)
      · rcases h4 p hc hmem with hmem | ⟨rfl, rfl⟩
        · exact Or.inl hmem
        · exact Or.inr ⟨hother, hpop⟩
      · rcases hgn with hgn | ⟨rfl, -, hgn⟩
        · exact Or.inl hgn
        · exact Or.inr (h.fact_of_populated htop hpop hgn)
  | askMaps i maps hmaps =>
      refine h.of_new (fun _ => rfl) (fun _ => rfl) (fun _ _ hp => hp)
        (fun _ _ _ hmem => Or.inl hmem) (fun p tuple hmem => Or.inl hmem) (fun m hm => ?_)
      rcases Set.mem_insert_iff.mp hm with rfl | hm
      · obtain ⟨hpos, hsaid⟩ := mem_produceMapsCopy hmaps
        refine Or.inr fun p hc hmem => ?_
        rw [hpos, h.address i]
        rcases hsaid p hc hmem with hmem | ⟨hp, hlevel, hp₀⟩
        · exact (h.recorded i p hc hmem).2
        · rw [h.address i] at hp₀
          exact ⟨i, hp, inGnode_self hlevel hp₀⟩
      · exact Or.inl hm
  | giveMaps i maps s forward hmaps happly =>
      rcases PeerActor.applyParticipantSet_eq_ok happly with
        ⟨rfl, rfl⟩ | ⟨folded, hfolded, h1, h2, h3, h4, rfl⟩
      · refine h.of_setNode rfl rfl (fun p hp => hp) (fun p hc hmem => Or.inl hmem)
          (fun p tuple hmem => Or.inl hmem) (fun m hm => ?_)
        rcases hm with hm | hm
        · exact Or.inl hm
        · cases hm
      · have hnew := h.populated_fold hmaps hfolded
        have hrecorded : ∀ p hc, hc ∈ Participants.of s.participantSet p →
            hc ∈ Participants.of (net.node i).participantSet p ∨
              ((addr i).pos hc.level ≠ some hc.pos ∧
                Populated net addr p (addr i).positions hc) := by
          intro p hc hmem
          rcases h4 p hc hmem with hmem | ⟨hmem, hother⟩
          · exact Or.inl hmem
          · rw [h.address i] at hother
            exact Or.inr ⟨hother, hnew p hc hmem⟩
        refine h.of_setNode h1 h2 (fun p hp => h3 ▸ hp) hrecorded
          (fun p tuple hmem => Or.inl hmem) (fun m hm => ?_)
        rcases hm with hm | hm
        · exact Or.inl hm
        · cases hm
          refine Or.inr fun p hc hmem => ?_
          show Populated net addr p s.myPos.positions hc
          rw [h1, h.address i]
          rcases hrecorded p hc (mem_produceBelowLevel hmem) with hmem | ⟨-, hpop⟩
          · exact (h.recorded i p hc hmem).2
          · exact hpop
  | search i cmd =>
      refine h.of_setNode (by simp) (by simp) (fun p hp => hp) (fun p hc hmem => ?_)
        (fun p tuple hmem => Or.inl hmem) (fun m hm => Or.inl hm)
      rw [PeerState.handle_participantSet] at hmem
      exact Or.inl hmem

/-- Along every run everything stays true. -/
theorem of_reachable (htop : ∀ i, (addr i).topology = t)
    {maxServices maxParticipantsPerService retrievedBelowLevel : ι → ℕ}
    (hreach : Relation.ReflTransGen Step
      (GossipNet.start t addr maxServices maxParticipantsPerService retrievedBelowLevel) net) :
    GossipInv t addr net := by
  induction hreach with
  | refl => exact GossipInv.start t addr _ _ _
  | tail _ hstep ih => exact ih.step htop hstep

end GossipInv

/-- Whatever the nodes registered, and whatever became of their messages, every participant a node
has recorded names a g-node other than its own with a node registered for the service in it. -/
theorem gossip_true {ι V : Type} [DecidableEq ι] {t : Topology} {addr : ι → Naddr}
    (htop : ∀ i, (addr i).topology = t)
    (maxServices maxParticipantsPerService retrievedBelowLevel : ι → ℕ) {net : GossipNet ι V}
    (hreach : Relation.ReflTransGen Step
      (GossipNet.start t addr maxServices maxParticipantsPerService retrievedBelowLevel) net)
    (i : ι) (p : ServiceId) (h : HCoord)
    (hmem : h ∈ Participants.of (net.node i).participantSet p) :
    (addr i).pos h.level ≠ some h.pos ∧
      ∃ j, p ∈ (net.node j).myServices ∧ InGnode (addr i).positions h (addr j).positions := by
  exact (GossipInv.of_reachable htop hreach).recorded i p h hmem

lemma pairTopology_ne_nil : ([4] : List UInt32) ≠ [] := by simp

lemma pairTopology_pos : ∀ g ∈ ([4] : List UInt32), 0 < g.toNat := by simp

/-- A ring of four places. -/
def pairTopology : Topology := ⟨[4], pairTopology_ne_nil, pairTopology_pos⟩

/-- Two nodes on it, at 0 and at 1. -/
def pairAddr (i : Bool) : Naddr := ⟨pairTopology, [if i then 1 else 0], rfl⟩

/-- The node at 1, as a tuple. -/
def pairTuple : TupleGNode where
  topology := pairTopology
  top := 1
  positions := [1]
  nonempty := by simp
  length_le := by simp
  inRange := checkPositions_eq_ok.mp (show checkPositions "" pairTopology 0 [1] = .ok () from rfl)

/-- The two nodes know nothing yet. -/
def pairNet : GossipNet Bool Unit :=
  GossipNet.start pairTopology pairAddr (fun _ => 256) (fun _ => 8192) fun _ => 1

/-- The node at 1 has registered service 7 and announced it. -/
def pairNetAnnounced : GossipNet Bool Unit :=
  { pairNet.setNode true ((pairNet.node true).register ⟨7⟩ true) with
    facts := insert (⟨7⟩, pairTuple) ∅ }

lemma pairNet_announced : Relation.ReflTransGen Step pairNet pairNetAnnounced := by
  have hregistered := Relation.ReflTransGen.single (Step.register pairNet true ⟨7⟩ true)
  exact hregistered.tail
    (Step.announce _ true ⟨7⟩ 1 pairTuple (List.mem_singleton.mpr rfl) rfl rfl)

/-- The node at 0 records the announcement, and it is true. -/
theorem gossip_true_pair :
    ∃ net : GossipNet Bool Unit, Relation.ReflTransGen Step pairNet net ∧
      ⟨0, 1⟩ ∈ Participants.of (net.node false).participantSet ⟨7⟩ ∧
      ∃ j, ⟨7⟩ ∈ (net.node j).myServices ∧
        InGnode (pairAddr false).positions ⟨0, 1⟩ (pairAddr j).positions := by
  have hrun := pairNet_announced.tail (Step.setParticipant _ false ⟨7⟩ pairTuple .visible ⟨0, 1⟩ 0
    (Set.mem_insert _ _) rfl (by decide))
  have hmem : (⟨0, 1⟩ : HCoord) ∈ Participants.of
      ((pairNetAnnounced.node false).applyParticipant ⟨7⟩ ⟨0, 1⟩ 0).1.participantSet ⟨7⟩ := by
    decide
  have htop : ∀ i, (pairAddr i).topology = pairTopology := fun _ => rfl
  exact ⟨_, hrun, hmem, (gossip_true htop _ _ _ hrun false ⟨7⟩ ⟨0, 1⟩ hmem).2⟩

end Netsukuku
