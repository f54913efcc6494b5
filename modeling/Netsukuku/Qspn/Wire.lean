import Mathlib
import Netsukuku.Proto.Messages
import Netsukuku.Qspn.Clusters

/-!
# The wire form of an ETP

A message is converted field by field to the generated wire types and back; the way back checks
again what the domain types guarantee.  The one check that the types of this crate do not make true
by themselves is that of a fingerprint's seed, which must have an entry for each level: `construct`
keeps it only if the siblings are of the level it aggregates.

* `V1.EtpPath`, `V1.EtpMessage` — the wire types and the conversions.
* `V1.EtpMessage.codec` — the encoding of the protocol file.
* `encodeEtpMessage`, `decodeEtpMessage` — the tagged payload.
* `Fingerprint.Built` — what the constructors make.
* `decode_encode_iff` — which messages come back as they were sent.
* `built_of_updateClusters` — the climb of a node aggregates siblings of one level.
-/

namespace Netsukuku

open Protobuf
open Rpc (TypedValue)

namespace V1

/-! ## Conversions -/

structure EtpPath where
  hops : List HCoord
  arcs : List UInt32
  cost : Option Cost
  fingerprint : Option Fingerprint
  nodesInside : UInt32
  ignoreOutside : List Bool
  deriving DecidableEq

structure EtpMessage where
  nodeAddress : Option Naddr
  fingerprints : List Fingerprint
  nodesInside : List UInt32
  hops : List HCoord
  paths : List EtpPath
  deriving DecidableEq

def EtpPath.ofDomain (p : Netsukuku.EtpPath) : EtpPath where
  hops := p.hops.map .ofDomain
  arcs := p.arcs.map ArcId.asU32
  cost := some (.ofDomain p.cost)
  fingerprint := some (.ofDomain p.fingerprint)
  nodesInside := p.nodesInside
  ignoreOutside := p.ignoreOutside

/-- A field that a peer may have left out. -/
def required {α : Type} (why : String) : Option α → Outcome QspnError α
  | some a => .ok a
  | none => Outcome.fail (.malformedEtp why)

def EtpPath.toDomain (usizeBits : ℕ) (p : EtpPath) : Outcome QspnError Netsukuku.EtpPath := do
  let hops ← p.hops.mapM fun h => (h.toDomain usizeBits).mapErr .domain
  let costWire ← required "EtpPath.cost is missing" p.cost
  let fingerprintWire ← required "EtpPath.fingerprint is missing" p.fingerprint
  let cost ← costWire.toDomain.mapErr .domain
  let fingerprint ← (fingerprintWire.toDomain usizeBits).mapErr .domain
  .ok {
    hops
    arcs := p.arcs.map ArcId.mk
    cost
    fingerprint
    nodesInside := p.nodesInside
    ignoreOutside := p.ignoreOutside }

def EtpMessage.ofDomain (m : Netsukuku.EtpMessage) : EtpMessage where
  nodeAddress := some (.ofDomain m.nodeAddress)
  fingerprints := m.fingerprints.map .ofDomain
  nodesInside := m.nodesInside
  hops := m.hops.map .ofDomain
  paths := m.paths.map .ofDomain

def EtpMessage.toDomain (usizeBits : ℕ) (m : EtpMessage) :
    Outcome QspnError Netsukuku.EtpMessage := do
  let nodeAddressWire ← required "EtpMessage.node_address is missing" m.nodeAddress
  let fingerprints ← m.fingerprints.mapM fun f => (f.toDomain usizeBits).mapErr .domain
  let hops ← m.hops.mapM fun h => (h.toDomain usizeBits).mapErr .domain
  let paths ← m.paths.mapM (EtpPath.toDomain usizeBits)
  let nodeAddress ← nodeAddressWire.toDomain.mapErr .domain
  .ok { nodeAddress, fingerprints, nodesInside := m.nodesInside, hops, paths }

/-! ## The messages of `qspn.proto` -/

def EtpPath.codec : MessageCodec EtpPath where
  fields m :=
    numbered 1 ((FieldCodec.repeated HCoord.codec).encode m.hops) ++
      numbered 2 ((FieldCodec.packed .uint32).encode m.arcs) ++
      numbered 3 ((FieldCodec.embedded Cost.codec).encode m.cost) ++
      numbered 4 ((FieldCodec.embedded Fingerprint.codec).encode m.fingerprint) ++
      numbered 5 ((FieldCodec.scalar .uint32 0).encode m.nodesInside) ++
      numbered 6 ((FieldCodec.packed .bool).encode m.ignoreOutside)
  read fs := do
    let hops ← (FieldCodec.repeated HCoord.codec).decode (occurrences 1 fs)
    let arcs ← (FieldCodec.packed .uint32).decode (occurrences 2 fs)
    let cost ← (FieldCodec.embedded Cost.codec).decode (occurrences 3 fs)
    let fingerprint ← (FieldCodec.embedded Fingerprint.codec).decode (occurrences 4 fs)
    let nodesInside ← (FieldCodec.scalar .uint32 0).decode (occurrences 5 fs)
    let ignoreOutside ← (FieldCodec.packed .bool).decode (occurrences 6 fs)
    some ⟨hops, arcs, cost, fingerprint, nodesInside, ignoreOutside⟩
  read_fields m := by simp

def EtpMessage.codec : MessageCodec EtpMessage where
  fields m :=
    numbered 1 ((FieldCodec.embedded Naddr.codec).encode m.nodeAddress) ++
      numbered 2 ((FieldCodec.repeated Fingerprint.codec).encode m.fingerprints) ++
      numbered 3 ((FieldCodec.packed .uint32).encode m.nodesInside) ++
      numbered 4 ((FieldCodec.repeated HCoord.codec).encode m.hops) ++
      numbered 5 ((FieldCodec.repeated EtpPath.codec).encode m.paths)
  read fs := do
    let nodeAddress ← (FieldCodec.embedded Naddr.codec).decode (occurrences 1 fs)
    let fingerprints ← (FieldCodec.repeated Fingerprint.codec).decode (occurrences 2 fs)
    let nodesInside ← (FieldCodec.packed .uint32).decode (occurrences 3 fs)
    let hops ← (FieldCodec.repeated HCoord.codec).decode (occurrences 4 fs)
    let paths ← (FieldCodec.repeated EtpPath.codec).decode (occurrences 5 fs)
    some ⟨nodeAddress, fingerprints, nodesInside, hops, paths⟩
  read_fields m := by simp

end V1

/-- `ETP_MESSAGE_TAG`. -/
def etpMessageTag : String := "qspn.EtpMessage"

def encodeEtpMessage (prost : Prost V1.EtpMessage) (m : EtpMessage) : TypedValue :=
  typedValue prost etpMessageTag (.ofDomain m)

def decodeEtpMessage (usizeBits : ℕ) (prost : Prost V1.EtpMessage) (tv : TypedValue) :
    Outcome QspnError EtpMessage := do
  let wire ← (fromTypedValue prost tv etpMessageTag).mapErr .domain
  wire.toDomain usizeBits

/-! ## What can be sent -/

section Sendable

variable {usizeBits : ℕ}

/-- The coordinates fit the host's `usize`, and the fingerprint is valid. -/
structure EtpPath.Sendable (usizeBits : ℕ) (p : EtpPath) : Prop where
  hops : ∀ h ∈ p.hops, h.level < 2 ^ usizeBits
  level : p.fingerprint.level < 2 ^ usizeBits
  fingerprint : p.fingerprint.Valid

/-- The same for the whole message. -/
structure EtpMessage.Sendable (usizeBits : ℕ) (m : EtpMessage) : Prop where
  hops : ∀ h ∈ m.hops, h.level < 2 ^ usizeBits
  fingerprints : ∀ f ∈ m.fingerprints, f.Valid ∧ f.level < 2 ^ usizeBits
  paths : ∀ p ∈ m.paths, p.Sendable usizeBits

namespace V1

/-- A list decodes to what it was encoded from if its elements do. -/
lemma mapM_map_eq_ok {α β ε : Type} {decode : β → Outcome ε α} {encode : α → β} {l : List α}
    (h : ∀ a ∈ l, decode (encode a) = .ok a) : (l.map encode).mapM decode = .ok l := by
  rw [Outcome.mapM_eq_ok, List.forall₂_map_left_iff, List.forall₂_same]
  exact h

lemma mapM_hops (hbits : usizeBits ≤ 64) {hops : List Netsukuku.HCoord}
    (h : ∀ h ∈ hops, h.level < 2 ^ usizeBits) :
    (hops.map HCoord.ofDomain).mapM (fun h => (h.toDomain usizeBits).mapErr QspnError.domain) =
      .ok hops := by
  refine mapM_map_eq_ok fun hop hmem => ?_
  rw [HCoord.toDomain_ofDomain hbits (h hop hmem)]
  rfl

lemma lt_of_mapM_hops {hops : List HCoord} {hops' : List Netsukuku.HCoord}
    (h : hops.mapM (fun h => (h.toDomain usizeBits).mapErr QspnError.domain) = .ok hops') :
    ∀ h ∈ hops', h.level < 2 ^ usizeBits := by
  intro hop hmem
  obtain ⟨wire, -, hrun⟩ := (Outcome.mem_of_mapM h hop).mp hmem
  exact HCoord.lt_of_toDomain (Outcome.mapErr_eq_ok.mp hrun)

lemma EtpPath.toDomain_ofDomain (hbits : usizeBits ≤ 64) {p : Netsukuku.EtpPath}
    (h : p.Sendable usizeBits) : (ofDomain p).toDomain usizeBits = .ok p := by
  have harcs : (p.arcs.map ArcId.asU32).map ArcId.mk = p.arcs := by
    rw [List.map_map]
    exact List.map_id _
  rw [toDomain, ofDomain]
  simp only [mapM_hops hbits h.hops, required, Outcome.ok_bind, Cost.toDomain_ofDomain,
    Fingerprint.toDomain_ofDomain hbits h.level h.fingerprint, Outcome.mapErr_ok, harcs]

/-- What was decoded can be sent on. -/
lemma EtpPath.sendable_of_toDomain {wire : EtpPath} {p : Netsukuku.EtpPath}
    (h : wire.toDomain usizeBits = .ok p) : p.Sendable usizeBits := by
  obtain ⟨hops, hhops, h⟩ := Outcome.bind_eq_ok.mp h
  obtain ⟨costWire, -, h⟩ := Outcome.bind_eq_ok.mp h
  obtain ⟨fingerprintWire, -, h⟩ := Outcome.bind_eq_ok.mp h
  obtain ⟨cost, -, h⟩ := Outcome.bind_eq_ok.mp h
  obtain ⟨fingerprint, hfingerprint, h⟩ := Outcome.bind_eq_ok.mp h
  cases h
  obtain ⟨hvalid, hlevel⟩ := Fingerprint.valid_of_toDomain (Outcome.mapErr_eq_ok.mp hfingerprint)
  exact ⟨lt_of_mapM_hops hhops, hlevel, hvalid⟩

lemma EtpMessage.toDomain_ofDomain (hbits : usizeBits ≤ 64) {m : Netsukuku.EtpMessage}
    (h : m.Sendable usizeBits) : (ofDomain m).toDomain usizeBits = .ok m := by
  have hfingerprints : (m.fingerprints.map Fingerprint.ofDomain).mapM
      (fun f => (f.toDomain usizeBits).mapErr QspnError.domain) = .ok m.fingerprints := by
    refine mapM_map_eq_ok fun f hf => ?_
    obtain ⟨hvalid, hlevel⟩ := h.fingerprints f hf
    rw [Fingerprint.toDomain_ofDomain hbits hlevel hvalid]
    rfl
  have hpaths : (m.paths.map EtpPath.ofDomain).mapM (EtpPath.toDomain usizeBits) =
      .ok m.paths :=
    mapM_map_eq_ok fun p hp => EtpPath.toDomain_ofDomain hbits (h.paths p hp)
  rw [toDomain, ofDomain]
  simp only [required, Outcome.ok_bind, hfingerprints, mapM_hops hbits h.hops, hpaths,
    Naddr.toDomain_ofDomain, Outcome.mapErr_ok]

lemma EtpMessage.sendable_of_toDomain {wire : EtpMessage} {m : Netsukuku.EtpMessage}
    (h : wire.toDomain usizeBits = .ok m) : m.Sendable usizeBits := by
  obtain ⟨nodeAddressWire, -, h⟩ := Outcome.bind_eq_ok.mp h
  obtain ⟨fingerprints, hfingerprints, h⟩ := Outcome.bind_eq_ok.mp h
  obtain ⟨hops, hhops, h⟩ := Outcome.bind_eq_ok.mp h
  obtain ⟨paths, hpaths, h⟩ := Outcome.bind_eq_ok.mp h
  obtain ⟨nodeAddress, -, h⟩ := Outcome.bind_eq_ok.mp h
  cases h
  refine ⟨lt_of_mapM_hops hhops, fun f hf => ?_, fun p hp => ?_⟩
  · obtain ⟨wire', -, hrun⟩ := (Outcome.mem_of_mapM hfingerprints f).mp hf
    exact Fingerprint.valid_of_toDomain (Outcome.mapErr_eq_ok.mp hrun)
  · obtain ⟨wire', -, hrun⟩ := (Outcome.mem_of_mapM hpaths p).mp hp
    exact EtpPath.sendable_of_toDomain hrun

end V1

variable {prost : Prost V1.EtpMessage} {m : EtpMessage}

lemma sendable_of_decode {tv : TypedValue} (h : decodeEtpMessage usizeBits prost tv = .ok m) :
    m.Sendable usizeBits := by
  obtain ⟨wire, -, h⟩ := Outcome.bind_eq_ok.mp h
  exact V1.EtpMessage.sendable_of_toDomain h

/-- **A message comes back as it was sent exactly if it can be sent.** -/
lemma decode_encode_iff (hbits : usizeBits ≤ 64) (hprost : prost.Decodes (.ofDomain m)) :
    decodeEtpMessage usizeBits prost (encodeEtpMessage prost m) = .ok m ↔ m.Sendable usizeBits := by
  refine ⟨sendable_of_decode, fun h => ?_⟩
  rw [decodeEtpMessage, encodeEtpMessage, fromTypedValue_typedValue hprost, Outcome.mapErr_ok,
    Outcome.ok_bind, V1.EtpMessage.toDomain_ofDomain hbits h]

end Sendable

/-! ## What the constructors make -/

namespace Fingerprint

variable {Id : Type} {R : Fingerprint Id → List (Fingerprint Id) → Prop} {f g : Fingerprint Id}
  {siblings : List (Fingerprint Id)}

/-- The fingerprints the constructors make, where `construct` aggregates what `R` relates. -/
inductive Built (R : Fingerprint Id → List (Fingerprint Id) → Prop) : Fingerprint Id → Prop
  | new (id : Id) (eldership : UInt32) (pendingElderships : List UInt32) :
      Built R (new id eldership pendingElderships)
  | construct {f g : Fingerprint Id} {siblings : List (Fingerprint Id)} {isNullEldership : Bool}
      (built : Built R f) (siblings_built : ∀ s ∈ siblings, Built R s) (hR : R f siblings)
      (hrun : f.construct siblings isNullEldership = .ok g) : Built R g
  | fromParts {parts : FingerprintParts Id} {f : Fingerprint Id}
      (hrun : fromParts parts = .ok f) : Built R f

/-- The siblings are at the level that is aggregated. -/
def SameLevel (f : Fingerprint Id) (siblings : List (Fingerprint Id)) : Prop :=
  ∀ s ∈ siblings, s.level = f.level

/-- Aggregation records one more claim. -/
lemma Valid.construct (hf : f.Valid) (hsiblings : ∀ s ∈ siblings, s.Valid)
    (hlevel : SameLevel f siblings) {isNullEldership : Bool}
    (h : f.construct siblings isNullEldership = .ok g) : g.Valid := by
  obtain ⟨next, rest, -, rfl⟩ := construct_eq_ok h
  have hchampion : ∀ x : ℤ × Id × List ℤ,
      x ∈ (f.ownClaim isNullEldership, f.id, f.eldershipsSeed) ::
        (siblings.map entrant).filter isReal →
      IsClaim x.1 ∧ x.2.2.length = f.level ∧ ∀ raw ∈ x.2.2, IsClaim raw := by
    intro x hx
    rcases List.mem_cons.mp hx with rfl | hx
    · refine ⟨?_, hf.seedLength, hf.seed⟩
      rw [ownClaim]
      split_ifs
      · exact isClaim_null
      · exact hf.eldership
    · obtain ⟨s, hs, rfl⟩ := List.mem_map.mp (List.mem_filter.mp hx).1
      have hvalid := hsiblings s hs
      exact ⟨hvalid.eldership, hvalid.seedLength.trans (hlevel s hs), hvalid.seed⟩
  obtain ⟨hclaim, hlength, hseed⟩ := hchampion _ (champion_mem siblings _)
  refine ⟨?_, isClaim_natCast next, fun raw hraw => ?_⟩
  · rw [List.length_cons, hlength]
  · rcases List.mem_cons.mp hraw with rfl | hraw
    · exact hclaim
    · exact hseed raw hraw

/-- **Used as documented, the constructors make valid fingerprints.** -/
lemma Built.valid (h : f.Built SameLevel) : f.Valid := by
  induction h with
  | new id eldership pendingElderships =>
      refine ⟨rfl, isClaim_natCast eldership, fun raw hraw => ?_⟩
      cases hraw
  | construct built siblings_built hR hrun ih ihs => exact ih.construct ihs hR hrun
  | fromParts hrun => exact valid_of_fromParts hrun

end Fingerprint

open Fingerprint (SameLevel)

/-- A message whose fingerprints the constructors made and whose levels are `usize` values. -/
structure EtpMessage.Built (R : Fp → List Fp → Prop) (usizeBits : ℕ) (m : EtpMessage) : Prop where
  hops : ∀ h ∈ m.hops, h.level < 2 ^ usizeBits
  fingerprints : ∀ f ∈ m.fingerprints, f.Built R ∧ f.level < 2 ^ usizeBits
  pathHops : ∀ p ∈ m.paths, ∀ h ∈ p.hops, h.level < 2 ^ usizeBits
  pathFingerprints : ∀ p ∈ m.paths, p.fingerprint.Built R ∧ p.fingerprint.level < 2 ^ usizeBits

lemma EtpMessage.Built.sendable {usizeBits : ℕ} {m : EtpMessage} (h : m.Built SameLevel usizeBits) :
    m.Sendable usizeBits where
  hops := h.hops
  fingerprints f hf := ⟨(h.fingerprints f hf).1.valid, (h.fingerprints f hf).2⟩
  paths p hp := ⟨h.pathHops p hp, (h.pathFingerprints p hp).2, (h.pathFingerprints p hp).1.valid⟩

/-- **A message comes back as it was sent**, if the constructors made it, and also if it was
received. -/
theorem decode_encode_etpMessage {usizeBits : ℕ} (hbits : usizeBits ≤ 64)
    {prost : Prost V1.EtpMessage} {m : EtpMessage} (hprost : prost.Decodes (.ofDomain m)) :
    (m.Built SameLevel usizeBits →
      decodeEtpMessage usizeBits prost (encodeEtpMessage prost m) = .ok m) ∧
    ∀ tv, decodeEtpMessage usizeBits prost tv = .ok m →
      decodeEtpMessage usizeBits prost (encodeEtpMessage prost m) = .ok m :=
  ⟨fun h => (decode_encode_iff hbits hprost).mpr h.sendable,
    fun _ h => (decode_encode_iff hbits hprost).mpr (sendable_of_decode h)⟩

/-! ## The climb of a node -/

/-- **The climb aggregates siblings of one level**: from fingerprints the constructors made it
makes such fingerprints again. -/
lemma built_of_updateClusters {F : Type} {s s' : QspnState F} {events : List QspnEvent}
    (hs : RepInv s) (hrun : s.updateClusters = (s', .ok events))
    (hown : ∀ f, s.myFingerprints[0]? = some f → f.Built SameLevel)
    (hstored : ∀ d, ∀ np ∈ s.storedAt d, np.path.fingerprint.Built SameLevel) :
    ∀ f ∈ s'.myFingerprints, f.Built SameLevel := by
  obtain ⟨s'', events', hrun', hs', hmap⟩ := hs.updateClusters_ok
  obtain ⟨rfl, -⟩ := Prod.mk.inj (hrun.symm.trans hrun')
  obtain ⟨hclimbed, hstart⟩ := QspnState.climbed_of_updateClusters hrun
  have hlevels : s'.levels = s.levels := by rw [QspnState.levels, hmap.myNaddr, QspnState.levels]
  have hsiblings : ∀ level, ∀ f ∈ (s'.siblings level).map Prod.fst,
      f.Built SameLevel ∧ f.level = level := by
    intro level f hf
    rw [QspnState.siblings_of_sameMap hmap] at hf
    obtain ⟨e, he, rfl⟩ := List.mem_map.mp hf
    obtain ⟨dest, hdest, heval⟩ := List.mem_filterMap.mp he
    cases hm : s.destinations[level]? with
    | none =>
        rw [hm] at hdest
        cases hdest
    | some destinations =>
        rw [hm] at hdest
        obtain ⟨pos, hpos⟩ := KeyedMap.mem_values.mp hdest
        have hlook : s.destination level pos = some dest := hs.destination_of_mem hm hpos
        obtain ⟨⟨fp, nn, i⟩, hrun⟩ := hs.evaluate_ok (d := ⟨level, pos⟩) hlook s.arcCost
        rw [QspnState.evaluated, hrun] at heval
        cases heval
        obtain ⟨np, hnp, rfl⟩ := Destination.evaluate_mem hrun
        have hmem : np ∈ s.storedAt ⟨level, pos⟩ := QspnState.mem_storedAt.mpr ⟨dest, hlook, hnp⟩
        exact ⟨hstored _ np hmem, (hs.pathInv hmem).fingerprint_level⟩
  have hall : ∀ level ≤ s.levels, ∀ f, s'.myFingerprints[level]? = some f → f.Built SameLevel := by
    intro level
    induction level with
    | zero =>
        intro _ f hf
        rw [hstart.fingerprint] at hf
        exact hown f hf
    | succ level ih =>
        intro hlevel g hg
        obtain ⟨f, g', m, n, hc⟩ := hclimbed level hlevel
        obtain rfl := Option.some.inj (hg.symm.trans hc.above)
        have hbelow := ih (Nat.le_of_succ_le hlevel) f hc.below
        have hf : f.level = level := hs'.chain.level level f hc.below
        exact .construct hbelow (fun x hx => (hsiblings level x hx).1)
          (fun x hx => (hsiblings level x hx).2.trans hf.symm) hc.construct
  intro f hf
  obtain ⟨level, hget⟩ := List.mem_iff_getElem?.mp hf
  have hlt := (List.getElem?_eq_some_iff.mp hget).1
  rw [hs'.chain.length, hlevels] at hlt
  exact hall level (Nat.lt_succ_iff.mp hlt) f hget

/-! ## Two messages -/

/-- A sender whose position is virtual, with a withdrawn path to its neighbour; its claim at
level 1 is null. -/
def withdrawal : EtpMessage where
  nodeAddress := oneLevelNode 5
  fingerprints := [Fingerprint.new [1] 0 [0], ⟨[1], 1, 0, [], [-1]⟩]
  nodesInside := [1, 1]
  hops := [⟨0, 2⟩]
  paths := [⟨[⟨0, 2⟩], [⟨7⟩], .dead, Fingerprint.new [1] 0 [0], 1, [false]⟩]

/-- The bytes of `withdrawal`. -/
def withdrawalBytes : List UInt8 :=
  [10, 8, 10, 3, 10, 1, 4, 18, 1, 5, 18, 8, 10, 1, 1, 24, 0, 34, 1, 0, 18, 9, 10, 1, 1, 16, 1, 24,
    0, 42, 0, 26, 2, 1, 1, 34, 2, 16, 2, 42, 26, 10, 2, 16, 2, 18, 1, 7, 26, 2, 24, 1, 34, 8, 10, 1,
    1, 24, 0, 34, 1, 0, 40, 1, 50, 1, 0]

example : V1.EtpMessage.codec.encode (.ofDomain withdrawal) = withdrawalBytes := by decide +kernel

lemma withdrawal_built : withdrawal.Built SameLevel 64 := by
  have hown : (Fingerprint.new [1] 0 [0] : Fp).Built SameLevel := .new [1] 0 [0]
  have habove : (⟨[1], 1, 0, [], [-1]⟩ : Fp).Built SameLevel := by
    have hrun : (Fingerprint.new [1] 0 [0] : Fp).construct [] true = .ok ⟨[1], 1, 0, [], [-1]⟩ :=
      rfl
    refine .construct hown ?_ ?_ hrun
    all_goals
      intro s hs
      cases hs
  refine ⟨?_, ?_, ?_, ?_⟩
  all_goals
    simp only [withdrawal, List.mem_cons, List.not_mem_nil, or_false, forall_eq, forall_eq_or_imp]
  · norm_num
  · exact ⟨⟨hown, by norm_num [Fingerprint.new]⟩, habove, by norm_num⟩
  · norm_num
  · exact ⟨hown, by norm_num [Fingerprint.new]⟩

theorem decode_encode_withdrawal :
    decodeEtpMessage 64 V1.EtpMessage.codec.prost
      (encodeEtpMessage V1.EtpMessage.codec.prost withdrawal) = .ok withdrawal :=
  (decode_encode_etpMessage le_rfl (MessageCodec.prost_decodes _ _)).1 withdrawal_built

/-- A node's fingerprint, aggregated with that of a g-node. -/
def mislevelled : Fp := ⟨[2], 1, 0, [], [0, 0]⟩

/-- A message that says nothing else. -/
def mislevelledEtp : EtpMessage := ⟨oneLevelNode 1, [mislevelled], [1], [], []⟩

/-- What `construct` makes of a sibling of the level above is refused by every receiver. -/
theorem not_decode_encode_etpMessage : ¬∀ (prost : Prost V1.EtpMessage) (m : EtpMessage),
    prost.Decodes (.ofDomain m) → m.Built (fun _ _ => True) 64 →
      decodeEtpMessage 64 prost (encodeEtpMessage prost m) = .ok m := by
  intro h
  have hsibling : (⟨[2], 1, 0, [0], [0]⟩ : Fp).Built fun _ _ => True := by
    have hrun : (Fingerprint.new [2] 0 [0, 0] : Fp).construct [] false =
        .ok ⟨[2], 1, 0, [0], [0]⟩ := rfl
    refine .construct (.new [2] 0 [0, 0]) ?_ trivial hrun
    intro s hs
    cases hs
  have hmade : mislevelled.Built fun _ _ => True := by
    have hrun : (Fingerprint.new [1] 0 [0] : Fp).construct [⟨[2], 1, 0, [0], [0]⟩] false =
        .ok mislevelled := rfl
    refine .construct (.new [1] 0 [0]) ?_ trivial hrun
    intro s hs
    rw [List.mem_singleton.mp hs]
    exact hsibling
  have hbuilt : mislevelledEtp.Built (fun _ _ => True) 64 := by
    refine ⟨by simp [mislevelledEtp], fun f hf => ?_, by simp [mislevelledEtp],
      by simp [mislevelledEtp]⟩
    rw [List.mem_singleton.mp hf]
    exact ⟨hmade, by norm_num [mislevelled]⟩
  have hprost : (⟨fun _ => [], fun _ => .ok (.ofDomain mislevelledEtp)⟩ :
      Prost V1.EtpMessage).Decodes (.ofDomain mislevelledEtp) := rfl
  have hsendable := (decode_encode_iff le_rfl hprost).mp (h _ _ hprost hbuilt)
  obtain ⟨hvalid, -⟩ := hsendable.fingerprints mislevelled List.mem_cons_self
  have hlength := hvalid.seedLength
  simp [mislevelled] at hlength

end Netsukuku
