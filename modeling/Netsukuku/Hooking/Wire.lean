import Mathlib
import Netsukuku.Proto.Domain
import Netsukuku.Hooking.Shift

/-!
# The packets of hooking on the wire

Requests and answers between g-nodes cross the wire at every hand-over.  What the receiver gets is
not always what was sent: the elderships of a tuple are cut or filled up to the number of its
positions, a level too large for its field becomes the largest there is, and `-1` stands for a
value that is not set.

* `V1` — the wire types and the conversions.
* `received` in each namespace — what the other side makes of a packet; `received_received` — it is
  the same however often it is handed on.
* `handsOn_packet` — what a node accepted goes on unchanged.
-/

namespace Netsukuku.Hooking

open Rpc (TypedValue)

/-! ## Packets -/

structure SearchMigrationPathRequest where
  pktId : Int32
  origin : TupleGNode
  caller : TupleGNode
  pathHops : List PathHop
  maxHostLvl : ℕ
  reserveRequestId : Int32
  deriving DecidableEq

structure SearchMigrationPathErrorPkt where
  pktId : Int32
  origin : TupleGNode
  deriving DecidableEq

structure SearchMigrationPathResponse where
  pktId : Int32
  origin : TupleGNode
  minHostLvl : ℕ
  setAdjacent : List PairTupleGNodeInt
  finalHostLvl : ℕ
  realNewPos : Option UInt32
  realNewEldership : Option Int32
  newConnVirPos : Option UInt32
  newEldership : Option Int32
  deriving DecidableEq

structure ExploreGNodeRequest where
  pktId : Int32
  origin : TupleGNode
  pathHops : List PathHop
  requestedLvl : ℕ
  deriving DecidableEq

structure ExploreGNodeResponse where
  pktId : Int32
  origin : TupleGNode
  result : TupleGNode
  deriving DecidableEq

structure DeleteReservationRequest where
  destGnode : TupleGNode
  reserveRequestId : Int32
  deriving DecidableEq

structure ResponsePacket where
  pktId : Int32
  dest : TupleGNode
  deriving DecidableEq

/-- Why a wire value was not decoded. -/
inductive WireError where
  | domain (e : DomainDecodeError)
  | missingField (field : String)
  | badEnum (field : String)
  deriving DecidableEq

/-! ## Numbers on the wire -/

/-- `u32::try_from(n).unwrap_or(u32::MAX)`. -/
def u32OfUsize (n : ℕ) : UInt32 := if n < 2 ^ 32 then UInt32.ofNat n else UInt32.ofNat (2 ^ 32 - 1)

/-- `i32::try_from(n).unwrap_or(i32::MAX)`. -/
def i32OfUsize (n : ℕ) : Int32 := if n < 2 ^ 31 then Int32.ofNat n else Int32.ofNat (2 ^ 31 - 1)

def optI32 (v : Option UInt32) : Int32 := (v.map tryFromI32).getD (-1)

def optI32Signed (v : Option Int32) : Int32 := v.getD (-1)

def i32OptU32 (v : Int32) : Option UInt32 := tryFromU32 v

def i32OptI32 (v : Int32) : Option Int32 := if v = -1 then none else some v

/-! ## Wire types -/

namespace V1

structure TupleGNode where
  pos : List UInt32
  eldership : List Int32
  deriving DecidableEq

structure PathHop where
  visitingGnode : Option TupleGNode
  previousMigratingGnode : Option TupleGNode
  deriving DecidableEq

structure PairTupleGNodeInt where
  gnode : Option TupleGNode
  borderRealPos : UInt32
  deriving DecidableEq

structure SearchMigrationPathRequest where
  pktId : Int32
  origin : Option TupleGNode
  caller : Option TupleGNode
  pathHops : List PathHop
  maxHostLvl : UInt32
  reserveRequestId : Int32
  deriving DecidableEq

structure SearchMigrationPathErrorPkt where
  pktId : Int32
  origin : Option TupleGNode
  deriving DecidableEq

structure SearchMigrationPathResponse where
  pktId : Int32
  origin : Option TupleGNode
  minHostLvl : UInt32
  setAdjacent : List PairTupleGNodeInt
  finalHostLvl : Int32
  realNewPos : Int32
  realNewEldership : Int32
  newConnVirPos : Int32
  newEldership : Int32
  deriving DecidableEq

structure ExploreGNodeRequest where
  pktId : Int32
  origin : Option TupleGNode
  pathHops : List PathHop
  requestedLvl : UInt32
  deriving DecidableEq

structure ExploreGNodeResponse where
  pktId : Int32
  origin : Option TupleGNode
  result : Option TupleGNode
  deriving DecidableEq

structure DeleteReservationRequest where
  destGnode : Option TupleGNode
  reserveRequestId : Int32
  deriving DecidableEq

structure RequestPacket where
  pktId : Int32
  dest : Option TupleGNode
  src : Option TupleGNode
  operation : Int32
  migrationId : Int32
  connGnodePos : Int32
  hostGnode : Option TupleGNode
  realNewPos : Int32
  realNewEldership : Int32
  deriving DecidableEq

structure ResponsePacket where
  pktId : Int32
  dest : Option TupleGNode
  deriving DecidableEq

/-! ## Conversions -/

def TupleGNode.ofDomain (t : Hooking.TupleGNode) : TupleGNode := ⟨t.pos, t.eldership⟩

/-- The elderships become as many as the positions, filled up with those not known yet. -/
def TupleGNode.toDomain (t : TupleGNode) : Hooking.TupleGNode :=
  ⟨t.pos, (t.eldership ++ List.replicate t.pos.length (-1)).take t.pos.length⟩

/-- A tuple that a peer may have left out. -/
def required (field : String) : Option TupleGNode → Outcome WireError Hooking.TupleGNode
  | some t => .ok t.toDomain
  | none => Outcome.fail (.missingField field)

def PathHop.ofDomain (h : Hooking.PathHop) : PathHop where
  visitingGnode := some (.ofDomain h.visitingGnode)
  previousMigratingGnode := h.previousMigratingGnode.map .ofDomain

def PathHop.toDomain (h : PathHop) : Outcome WireError Hooking.PathHop := do
  let visitingGnode ← required "PathHop.visiting_gnode" h.visitingGnode
  .ok ⟨visitingGnode, h.previousMigratingGnode.map TupleGNode.toDomain⟩

def PairTupleGNodeInt.ofDomain (p : Hooking.PairTupleGNodeInt) : PairTupleGNodeInt :=
  ⟨some (.ofDomain p.gnode), p.borderRealPos⟩

def PairTupleGNodeInt.toDomain (p : PairTupleGNodeInt) :
    Outcome WireError Hooking.PairTupleGNodeInt := do
  let gnode ← required "PairTupleGNodeInt.gnode" p.gnode
  .ok ⟨gnode, p.borderRealPos⟩

/-- `encode_hops`. -/
def encodeHops (hops : List Hooking.PathHop) : List PathHop := hops.map .ofDomain

/-- `decode_hops`. -/
def decodeHops (hops : List PathHop) : Outcome WireError (List Hooking.PathHop) :=
  hops.mapM PathHop.toDomain

/-- `encode_adjacent`. -/
def encodeAdjacent (set : List Hooking.PairTupleGNodeInt) : List PairTupleGNodeInt :=
  set.map .ofDomain

/-- `decode_adjacent`. -/
def decodeAdjacent (set : List PairTupleGNodeInt) :
    Outcome WireError (List Hooking.PairTupleGNodeInt) :=
  set.mapM PairTupleGNodeInt.toDomain

def SearchMigrationPathRequest.ofDomain (r : Hooking.SearchMigrationPathRequest) :
    SearchMigrationPathRequest where
  pktId := r.pktId
  origin := some (.ofDomain r.origin)
  caller := some (.ofDomain r.caller)
  pathHops := encodeHops r.pathHops
  maxHostLvl := u32OfUsize r.maxHostLvl
  reserveRequestId := r.reserveRequestId

def SearchMigrationPathRequest.toDomain (r : SearchMigrationPathRequest) :
    Outcome WireError Hooking.SearchMigrationPathRequest := do
  let origin ← required "SearchMigrationPathRequest.origin" r.origin
  let caller ← required "SearchMigrationPathRequest.caller" r.caller
  let pathHops ← decodeHops r.pathHops
  .ok {
    pktId := r.pktId
    origin
    caller
    pathHops
    maxHostLvl := r.maxHostLvl.toNat
    reserveRequestId := r.reserveRequestId }

def SearchMigrationPathErrorPkt.ofDomain (p : Hooking.SearchMigrationPathErrorPkt) :
    SearchMigrationPathErrorPkt := ⟨p.pktId, some (.ofDomain p.origin)⟩

def SearchMigrationPathErrorPkt.toDomain (p : SearchMigrationPathErrorPkt) :
    Outcome WireError Hooking.SearchMigrationPathErrorPkt := do
  let origin ← required "SearchMigrationPathErrorPkt.origin" p.origin
  .ok ⟨p.pktId, origin⟩

def SearchMigrationPathResponse.ofDomain (r : Hooking.SearchMigrationPathResponse) :
    SearchMigrationPathResponse where
  pktId := r.pktId
  origin := some (.ofDomain r.origin)
  minHostLvl := u32OfUsize r.minHostLvl
  setAdjacent := encodeAdjacent r.setAdjacent
  finalHostLvl := i32OfUsize r.finalHostLvl
  realNewPos := optI32 r.realNewPos
  realNewEldership := optI32Signed r.realNewEldership
  newConnVirPos := optI32 r.newConnVirPos
  newEldership := optI32Signed r.newEldership

def SearchMigrationPathResponse.toDomain (r : SearchMigrationPathResponse) :
    Outcome WireError Hooking.SearchMigrationPathResponse := do
  let origin ← required "SearchMigrationPathResponse.origin" r.origin
  let setAdjacent ← decodeAdjacent r.setAdjacent
  .ok {
    pktId := r.pktId
    origin
    minHostLvl := r.minHostLvl.toNat
    setAdjacent
    finalHostLvl := (max r.finalHostLvl.toInt 0).toNat
    realNewPos := i32OptU32 r.realNewPos
    realNewEldership := i32OptI32 r.realNewEldership
    newConnVirPos := i32OptU32 r.newConnVirPos
    newEldership := i32OptI32 r.newEldership }

def ExploreGNodeRequest.ofDomain (r : Hooking.ExploreGNodeRequest) : ExploreGNodeRequest where
  pktId := r.pktId
  origin := some (.ofDomain r.origin)
  pathHops := encodeHops r.pathHops
  requestedLvl := u32OfUsize r.requestedLvl

def ExploreGNodeRequest.toDomain (r : ExploreGNodeRequest) :
    Outcome WireError Hooking.ExploreGNodeRequest := do
  let origin ← required "ExploreGNodeRequest.origin" r.origin
  let pathHops ← decodeHops r.pathHops
  .ok ⟨r.pktId, origin, pathHops, r.requestedLvl.toNat⟩

def ExploreGNodeResponse.ofDomain (r : Hooking.ExploreGNodeResponse) : ExploreGNodeResponse :=
  ⟨r.pktId, some (.ofDomain r.origin), some (.ofDomain r.result)⟩

def ExploreGNodeResponse.toDomain (r : ExploreGNodeResponse) :
    Outcome WireError Hooking.ExploreGNodeResponse := do
  let origin ← required "ExploreGNodeResponse.origin" r.origin
  let result ← required "ExploreGNodeResponse.result" r.result
  .ok ⟨r.pktId, origin, result⟩

def DeleteReservationRequest.ofDomain (r : Hooking.DeleteReservationRequest) :
    DeleteReservationRequest := ⟨some (.ofDomain r.destGnode), r.reserveRequestId⟩

def DeleteReservationRequest.toDomain (r : DeleteReservationRequest) :
    Outcome WireError Hooking.DeleteReservationRequest := do
  let destGnode ← required "DeleteReservationRequest.dest_gnode" r.destGnode
  .ok ⟨destGnode, r.reserveRequestId⟩

/-- The numbers of `v1::MigOp`; nought is none of the two. -/
def migOpOfDomain : MigOp → Int32
  | .prepareMigration => 1
  | .finishMigration => 2

def migOpToDomain (v : Int32) : Outcome WireError MigOp :=
  if v = 1 then .ok .prepareMigration
  else if v = 2 then .ok .finishMigration
  else Outcome.fail (.badEnum "RequestPacket.operation")

def RequestPacket.ofDomain (p : Hooking.RequestPacket) : RequestPacket where
  pktId := p.pktId
  dest := some (.ofDomain p.dest)
  src := some (.ofDomain p.src)
  operation := migOpOfDomain p.operation
  migrationId := p.migrationId
  connGnodePos := p.connGnodePos
  hostGnode := some (.ofDomain p.hostGnode)
  realNewPos := p.realNewPos
  realNewEldership := p.realNewEldership

def RequestPacket.toDomain (p : RequestPacket) : Outcome WireError Hooking.RequestPacket := do
  let dest ← required "RequestPacket.dest" p.dest
  let src ← required "RequestPacket.src" p.src
  let operation ← migOpToDomain p.operation
  let hostGnode ← required "RequestPacket.host_gnode" p.hostGnode
  .ok {
    pktId := p.pktId
    dest
    src
    operation
    migrationId := p.migrationId
    connGnodePos := p.connGnodePos
    hostGnode
    realNewPos := p.realNewPos
    realNewEldership := p.realNewEldership }

def ResponsePacket.ofDomain (p : Hooking.ResponsePacket) : ResponsePacket :=
  ⟨p.pktId, some (.ofDomain p.dest)⟩

def ResponsePacket.toDomain (p : ResponsePacket) : Outcome WireError Hooking.ResponsePacket := do
  let dest ← required "ResponsePacket.dest" p.dest
  .ok ⟨p.pktId, dest⟩

end V1

/-! ## What the other side gets -/

namespace TupleGNode

/-- There are as many elderships as positions. -/
def Paired (t : TupleGNode) : Prop := t.eldership.length = t.pos.length

/-- The elderships as they come off the wire. -/
def received (t : TupleGNode) : TupleGNode :=
  ⟨t.pos, (t.eldership ++ List.replicate t.pos.length (-1)).take t.pos.length⟩

variable {t : TupleGNode}

@[simp] lemma received_pos (t : TupleGNode) : t.received.pos = t.pos := rfl

lemma paired_received (t : TupleGNode) : t.received.Paired := by
  simp only [Paired, received, List.length_take, List.length_append, List.length_replicate]
  omega

lemma received_eq_self : t.received = t ↔ t.Paired := by
  constructor
  · intro h
    rw [← h]
    exact paired_received t
  · intro h
    rw [received, ← h, List.take_left]

@[simp] lemma received_received (t : TupleGNode) : t.received.received = t.received :=
  received_eq_self.mpr (paired_received t)

end TupleGNode

namespace PathHop

def received (h : PathHop) : PathHop :=
  ⟨h.visitingGnode.received, h.previousMigratingGnode.map TupleGNode.received⟩

@[simp] lemma received_received (h : PathHop) : h.received.received = h.received := by
  cases h with
  | mk visitingGnode previousMigratingGnode => cases previousMigratingGnode <;> simp [received]

end PathHop

namespace PairTupleGNodeInt

def received (p : PairTupleGNodeInt) : PairTupleGNodeInt := ⟨p.gnode.received, p.borderRealPos⟩

@[simp] lemma received_received (p : PairTupleGNodeInt) : p.received.received = p.received := by
  simp [received]

lemma received_eq_self {p : PairTupleGNodeInt} : p.received = p ↔ p.gnode.Paired := by
  rw [received, ← TupleGNode.received_eq_self]
  cases p
  simp

end PairTupleGNodeInt

/-- A level as it comes off an unsigned field. -/
def clampU32 (n : ℕ) : ℕ := min n (2 ^ 32 - 1)

/-- A level as it comes off a signed field. -/
def clampI32 (n : ℕ) : ℕ := min n (2 ^ 31 - 1)

@[simp] lemma clampU32_clampU32 (n : ℕ) : clampU32 (clampU32 n) = clampU32 n := by
  simp [clampU32]

@[simp] lemma clampI32_clampI32 (n : ℕ) : clampI32 (clampI32 n) = clampI32 n := by
  simp [clampI32]

lemma toNat_u32OfUsize (n : ℕ) : (u32OfUsize n).toNat = clampU32 n := by
  rw [u32OfUsize, clampU32]
  split_ifs with h
  · rw [UInt32.toNat_ofNat', Nat.mod_eq_of_lt h]
    omega
  · rw [UInt32.toNat_ofNat', Nat.mod_eq_of_lt (by omega)]
    omega

lemma toInt_i32OfUsize (n : ℕ) : (max (i32OfUsize n).toInt 0).toNat = clampI32 n := by
  rw [i32OfUsize, clampI32]
  split_ifs with h
  · rw [Int32.toInt_ofNat_of_lt h]
    omega
  · rw [Int32.toInt_ofNat_of_lt (by omega)]
    omega

/-- A position comes back if it fits. -/
lemma i32OptU32_optI32 (v : Option UInt32) :
    i32OptU32 (optI32 v) = v.filter fun p => decide (p.toNat < 2 ^ 31) := by
  cases v with
  | none => rfl
  | some p =>
      rw [optI32, Option.map_some, Option.getD_some, i32OptU32, tryFromU32_tryFromI32,
        Option.filter_some]
      simp only [decide_eq_true_eq]

/-- An eldership comes back unless it is the one that stands for none. -/
lemma i32OptI32_optI32Signed (v : Option Int32) :
    i32OptI32 (optI32Signed v) = v.filter fun e => decide (e ≠ -1) := by
  cases v with
  | none => rfl
  | some e =>
      rw [optI32Signed, Option.getD_some, i32OptI32, Option.filter_some]
      by_cases h : e = -1 <;> simp [h]

namespace SearchMigrationPathRequest

def received (r : SearchMigrationPathRequest) : SearchMigrationPathRequest :=
  { r with
    origin := r.origin.received
    caller := r.caller.received
    pathHops := r.pathHops.map PathHop.received
    maxHostLvl := clampU32 r.maxHostLvl }

@[simp] lemma received_received (r : SearchMigrationPathRequest) :
    r.received.received = r.received := by simp [received]

end SearchMigrationPathRequest

namespace SearchMigrationPathErrorPkt

def received (p : SearchMigrationPathErrorPkt) : SearchMigrationPathErrorPkt :=
  ⟨p.pktId, p.origin.received⟩

end SearchMigrationPathErrorPkt

namespace SearchMigrationPathResponse

def received (r : SearchMigrationPathResponse) : SearchMigrationPathResponse :=
  { r with
    origin := r.origin.received
    minHostLvl := clampU32 r.minHostLvl
    setAdjacent := r.setAdjacent.map PairTupleGNodeInt.received
    finalHostLvl := clampI32 r.finalHostLvl
    realNewPos := r.realNewPos.filter fun p => decide (p.toNat < 2 ^ 31)
    realNewEldership := r.realNewEldership.filter fun e => decide (e ≠ -1)
    newConnVirPos := r.newConnVirPos.filter fun p => decide (p.toNat < 2 ^ 31)
    newEldership := r.newEldership.filter fun e => decide (e ≠ -1) }

@[simp] lemma received_received (r : SearchMigrationPathResponse) :
    r.received.received = r.received := by simp [received]

/-- An answer that comes back as it was sent. -/
structure Sendable (r : SearchMigrationPathResponse) : Prop where
  origin : r.origin.Paired
  minHostLvl : r.minHostLvl < 2 ^ 32
  setAdjacent : ∀ p ∈ r.setAdjacent, p.gnode.Paired
  finalHostLvl : r.finalHostLvl < 2 ^ 31
  realNewPos : ∀ p, r.realNewPos = some p → p.toNat < 2 ^ 31
  realNewEldership : r.realNewEldership ≠ some (-1)
  newConnVirPos : ∀ p, r.newConnVirPos = some p → p.toNat < 2 ^ 31
  newEldership : r.newEldership ≠ some (-1)

lemma filter_pos_eq_self {v : Option UInt32} :
    (v.filter fun p => decide (p.toNat < 2 ^ 31)) = v ↔ ∀ p, v = some p → p.toNat < 2 ^ 31 := by
  cases v <;> simp

lemma filter_eldership_eq_self {v : Option Int32} :
    (v.filter fun e => decide (e ≠ -1)) = v ↔ v ≠ some (-1) := by
  cases v <;> simp

lemma received_eq_self {r : SearchMigrationPathResponse} : r.received = r ↔ r.Sendable := by
  cases r with
  | mk pktId origin minHostLvl setAdjacent finalHostLvl realNewPos realNewEldership newConnVirPos
      newEldership =>
      simp only [received, mk.injEq, TupleGNode.received_eq_self, filter_pos_eq_self,
        filter_eldership_eq_self, true_and]
      have hmin : clampU32 minHostLvl = minHostLvl ↔ minHostLvl < 2 ^ 32 := by
        rw [clampU32]
        omega
      have hfinal : clampI32 finalHostLvl = finalHostLvl ↔ finalHostLvl < 2 ^ 31 := by
        rw [clampI32]
        omega
      have hset : setAdjacent.map PairTupleGNodeInt.received = setAdjacent ↔
          ∀ p ∈ setAdjacent, p.gnode.Paired := by
        nth_rewrite 2 [← List.map_id setAdjacent]
        simp only [List.map_inj_left, id_eq, PairTupleGNodeInt.received_eq_self]
      rw [hmin, hfinal, hset]
      constructor
      · rintro ⟨ho, hm, hs, hf, hp, he, hv, hn⟩
        exact ⟨ho, hm, hs, hf, hp, he, hv, hn⟩
      · rintro ⟨ho, hm, hs, hf, hp, he, hv, hn⟩
        exact ⟨ho, hm, hs, hf, hp, he, hv, hn⟩

end SearchMigrationPathResponse

namespace ExploreGNodeRequest

def received (r : ExploreGNodeRequest) : ExploreGNodeRequest :=
  { r with
    origin := r.origin.received
    pathHops := r.pathHops.map PathHop.received
    requestedLvl := clampU32 r.requestedLvl }

@[simp] lemma received_received (r : ExploreGNodeRequest) :
    r.received.received = r.received := by simp [received]

end ExploreGNodeRequest

namespace ExploreGNodeResponse

def received (r : ExploreGNodeResponse) : ExploreGNodeResponse :=
  ⟨r.pktId, r.origin.received, r.result.received⟩

@[simp] lemma received_received (r : ExploreGNodeResponse) :
    r.received.received = r.received := by simp [received]

lemma received_eq_self {r : ExploreGNodeResponse} :
    r.received = r ↔ r.origin.Paired ∧ r.result.Paired := by
  rw [← TupleGNode.received_eq_self, ← TupleGNode.received_eq_self]
  cases r
  simp [received]

end ExploreGNodeResponse

namespace DeleteReservationRequest

def received (r : DeleteReservationRequest) : DeleteReservationRequest :=
  ⟨r.destGnode.received, r.reserveRequestId⟩

end DeleteReservationRequest

namespace RequestPacket

def received (p : RequestPacket) : RequestPacket :=
  { p with
    dest := p.dest.received
    src := p.src.received
    hostGnode := p.hostGnode.received }

@[simp] lemma received_received (p : RequestPacket) : p.received.received = p.received := by
  simp [received]

end RequestPacket

namespace ResponsePacket

def received (p : ResponsePacket) : ResponsePacket := ⟨p.pktId, p.dest.received⟩

lemma received_eq_self {p : ResponsePacket} : p.received = p ↔ p.dest.Paired := by
  rw [← TupleGNode.received_eq_self]
  cases p
  simp [received]

end ResponsePacket

/-! ## The conversions make that of it -/

namespace V1

@[simp] lemma required_ofDomain (field : String) (t : Hooking.TupleGNode) :
    required field (some (.ofDomain t)) = .ok t.received := rfl

/-- A list decodes to what its elements decode to. -/
lemma mapM_map_ok {α β ε : Type} {decode : β → Outcome ε α} {encode : α → β} {f : α → α}
    (h : ∀ a, decode (encode a) = .ok (f a)) (l : List α) :
    (l.map encode).mapM decode = .ok (l.map f) := by
  rw [Outcome.mapM_eq_ok, List.forall₂_map_left_iff, List.forall₂_map_right_iff, List.forall₂_same]
  exact fun a _ => h a

lemma PairTupleGNodeInt.toDomain_ofDomain (p : Hooking.PairTupleGNodeInt) :
    (ofDomain p).toDomain = .ok p.received := rfl

lemma PathHop.toDomain_ofDomain (h : Hooking.PathHop) : (ofDomain h).toDomain = .ok h.received := by
  rw [toDomain, ofDomain, required_ofDomain, Outcome.ok_bind, Option.map_map]
  rfl

@[simp] lemma decodeHops_encodeHops (hops : List Hooking.PathHop) :
    decodeHops (encodeHops hops) = .ok (hops.map Hooking.PathHop.received) :=
  mapM_map_ok PathHop.toDomain_ofDomain hops

@[simp] lemma decodeAdjacent_encodeAdjacent (set : List Hooking.PairTupleGNodeInt) :
    decodeAdjacent (encodeAdjacent set) = .ok (set.map Hooking.PairTupleGNodeInt.received) :=
  mapM_map_ok PairTupleGNodeInt.toDomain_ofDomain set

lemma SearchMigrationPathRequest.toDomain_ofDomain (r : Hooking.SearchMigrationPathRequest) :
    (ofDomain r).toDomain = .ok r.received := by
  simp only [toDomain, ofDomain, required_ofDomain, decodeHops_encodeHops, Outcome.ok_bind,
    toNat_u32OfUsize]
  rfl

lemma SearchMigrationPathResponse.toDomain_ofDomain (r : Hooking.SearchMigrationPathResponse) :
    (ofDomain r).toDomain = .ok r.received := by
  simp only [toDomain, ofDomain, required_ofDomain, decodeAdjacent_encodeAdjacent, Outcome.ok_bind,
    toNat_u32OfUsize, toInt_i32OfUsize, i32OptU32_optI32, i32OptI32_optI32Signed]
  rfl

lemma ExploreGNodeRequest.toDomain_ofDomain (r : Hooking.ExploreGNodeRequest) :
    (ofDomain r).toDomain = .ok r.received := by
  simp only [toDomain, ofDomain, required_ofDomain, decodeHops_encodeHops, Outcome.ok_bind,
    toNat_u32OfUsize]
  rfl

lemma RequestPacket.toDomain_ofDomain (p : Hooking.RequestPacket) :
    (ofDomain p).toDomain = .ok p.received := by
  have hop : migOpToDomain (migOpOfDomain p.operation) = .ok p.operation := by
    cases p.operation <;> rfl
  simp only [toDomain, ofDomain, required_ofDomain, hop, Outcome.ok_bind]
  rfl

end V1

/-! ## Tagged payloads -/

section Codec

variable {D W : Type}

/-- `typed_codec!`, the way out. -/
def encodePacket (prost : Prost W) (ofDomain : D → W) (tag : String) (v : D) : TypedValue :=
  typedValue prost tag (ofDomain v)

/-- `typed_codec!`, the way in. -/
def decodePacket (prost : Prost W) (toDomain : W → Outcome WireError D) (tag : String)
    (tv : TypedValue) : Outcome WireError D := do
  let wire ← (fromTypedValue prost tv tag).mapErr .domain
  toDomain wire

lemma decodePacket_encodePacket {prost : Prost W} (hprost : ∀ w, prost.Decodes w) (ofDomain : D → W)
    (toDomain : W → Outcome WireError D) (tag : String) (v : D) :
    decodePacket prost toDomain tag (encodePacket prost ofDomain tag v) = toDomain (ofDomain v) := by
  rw [decodePacket, encodePacket, fromTypedValue_typedValue (hprost _), Outcome.mapErr_ok,
    Outcome.ok_bind]

end Codec

def searchRequestTag : String := "hooking.SearchMigrationPathRequest"
def searchErrorTag : String := "hooking.SearchMigrationPathErrorPkt"
def searchResponseTag : String := "hooking.SearchMigrationPathResponse"
def exploreRequestTag : String := "hooking.ExploreGNodeRequest"
def exploreResponseTag : String := "hooking.ExploreGNodeResponse"
def deleteReserveRequestTag : String := "hooking.DeleteReservationRequest"
def migRequestTag : String := "hooking.RequestPacket"
def migResponseTag : String := "hooking.ResponsePacket"

def encodeSearchRequest (prost : Prost V1.SearchMigrationPathRequest) :=
  encodePacket prost V1.SearchMigrationPathRequest.ofDomain searchRequestTag
def decodeSearchRequest (prost : Prost V1.SearchMigrationPathRequest) :=
  decodePacket prost V1.SearchMigrationPathRequest.toDomain searchRequestTag
def encodeSearchError (prost : Prost V1.SearchMigrationPathErrorPkt) :=
  encodePacket prost V1.SearchMigrationPathErrorPkt.ofDomain searchErrorTag
def decodeSearchError (prost : Prost V1.SearchMigrationPathErrorPkt) :=
  decodePacket prost V1.SearchMigrationPathErrorPkt.toDomain searchErrorTag
def encodeSearchResponse (prost : Prost V1.SearchMigrationPathResponse) :=
  encodePacket prost V1.SearchMigrationPathResponse.ofDomain searchResponseTag
def decodeSearchResponse (prost : Prost V1.SearchMigrationPathResponse) :=
  decodePacket prost V1.SearchMigrationPathResponse.toDomain searchResponseTag
def encodeExploreRequest (prost : Prost V1.ExploreGNodeRequest) :=
  encodePacket prost V1.ExploreGNodeRequest.ofDomain exploreRequestTag
def decodeExploreRequest (prost : Prost V1.ExploreGNodeRequest) :=
  decodePacket prost V1.ExploreGNodeRequest.toDomain exploreRequestTag
def encodeExploreResponse (prost : Prost V1.ExploreGNodeResponse) :=
  encodePacket prost V1.ExploreGNodeResponse.ofDomain exploreResponseTag
def decodeExploreResponse (prost : Prost V1.ExploreGNodeResponse) :=
  decodePacket prost V1.ExploreGNodeResponse.toDomain exploreResponseTag
def encodeDeleteReserveRequest (prost : Prost V1.DeleteReservationRequest) :=
  encodePacket prost V1.DeleteReservationRequest.ofDomain deleteReserveRequestTag
def decodeDeleteReserveRequest (prost : Prost V1.DeleteReservationRequest) :=
  decodePacket prost V1.DeleteReservationRequest.toDomain deleteReserveRequestTag
def encodeMigRequest (prost : Prost V1.RequestPacket) :=
  encodePacket prost V1.RequestPacket.ofDomain migRequestTag
def decodeMigRequest (prost : Prost V1.RequestPacket) :=
  decodePacket prost V1.RequestPacket.toDomain migRequestTag
def encodeMigResponse (prost : Prost V1.ResponsePacket) :=
  encodePacket prost V1.ResponsePacket.ofDomain migResponseTag
def decodeMigResponse (prost : Prost V1.ResponsePacket) :=
  decodePacket prost V1.ResponsePacket.toDomain migResponseTag

/-! ## From one node to the next -/

section Received

lemma decodeSearchRequest_encode {prost : Prost V1.SearchMigrationPathRequest}
    (hprost : ∀ w, prost.Decodes w) (r : SearchMigrationPathRequest) :
    decodeSearchRequest prost (encodeSearchRequest prost r) = .ok r.received :=
  (decodePacket_encodePacket hprost _ _ _ r).trans
    (V1.SearchMigrationPathRequest.toDomain_ofDomain r)

lemma decodeSearchResponse_encode {prost : Prost V1.SearchMigrationPathResponse}
    (hprost : ∀ w, prost.Decodes w) (r : SearchMigrationPathResponse) :
    decodeSearchResponse prost (encodeSearchResponse prost r) = .ok r.received :=
  (decodePacket_encodePacket hprost _ _ _ r).trans
    (V1.SearchMigrationPathResponse.toDomain_ofDomain r)

lemma decodeExploreRequest_encode {prost : Prost V1.ExploreGNodeRequest}
    (hprost : ∀ w, prost.Decodes w) (r : ExploreGNodeRequest) :
    decodeExploreRequest prost (encodeExploreRequest prost r) = .ok r.received :=
  (decodePacket_encodePacket hprost _ _ _ r).trans (V1.ExploreGNodeRequest.toDomain_ofDomain r)

lemma decodeExploreResponse_encode {prost : Prost V1.ExploreGNodeResponse}
    (hprost : ∀ w, prost.Decodes w) (r : ExploreGNodeResponse) :
    decodeExploreResponse prost (encodeExploreResponse prost r) = .ok r.received :=
  (decodePacket_encodePacket hprost _ _ _ r).trans rfl

lemma decodeMigRequest_encode {prost : Prost V1.RequestPacket} (hprost : ∀ w, prost.Decodes w)
    (p : RequestPacket) : decodeMigRequest prost (encodeMigRequest prost p) = .ok p.received :=
  (decodePacket_encodePacket hprost _ _ _ p).trans (V1.RequestPacket.toDomain_ofDomain p)

lemma decodeMigResponse_encode {prost : Prost V1.ResponsePacket} (hprost : ∀ w, prost.Decodes w)
    (p : ResponsePacket) : decodeMigResponse prost (encodeMigResponse prost p) = .ok p.received :=
  (decodePacket_encodePacket hprost _ _ _ p).trans rfl

end Received

/-! ## Handing on -/

/-- What was decoded goes on as it is. -/
def HandsOn {D : Type} (encode : D → TypedValue) (decode : TypedValue → Outcome WireError D) : Prop :=
  ∀ tv v, decode tv = .ok v → decode (encode v) = .ok v

lemma handsOn_packet {D W : Type} {prost : Prost W} (hprost : ∀ w, prost.Decodes w) {ofDomain : D → W}
    {toDomain : W → Outcome WireError D} {received : D → D} (tag : String)
    (htoDomain : ∀ v, toDomain (ofDomain v) = .ok (received v))
    (hreceived : ∀ w v, toDomain w = .ok v → received v = v) :
    HandsOn (encodePacket prost ofDomain tag) (decodePacket prost toDomain tag) := by
  intro tv v hdecode
  obtain ⟨wire, -, hwire⟩ := Outcome.bind_eq_ok.mp hdecode
  rw [decodePacket_encodePacket hprost, htoDomain, hreceived wire v hwire]

namespace V1

/-- A tuple that was decoded has as many elderships as positions. -/
lemma paired_toDomain (t : TupleGNode) : t.toDomain.Paired :=
  Hooking.TupleGNode.paired_received ⟨t.pos, t.eldership⟩

lemma received_toDomain (t : TupleGNode) : t.toDomain.received = t.toDomain :=
  Hooking.TupleGNode.received_eq_self.mpr (paired_toDomain t)

lemma required_received {field : String} {o : Option TupleGNode} {g : Hooking.TupleGNode}
    (h : required field o = .ok g) : g.received = g := by
  cases o with
  | none => cases h
  | some t =>
      cases h
      exact received_toDomain t

/-- The elements of a list that was decoded. -/
lemma map_received_of_mapM {α β ε : Type} {decode : β → Outcome ε α} {received : α → α}
    (h : ∀ b a, decode b = .ok a → received a = a) {bs : List β} {as : List α}
    (hdecode : bs.mapM decode = .ok as) : as.map received = as := by
  rw [Outcome.mapM_eq_ok] at hdecode
  induction hdecode with
  | nil => rfl
  | cons hone _ ih => rw [List.map_cons, h _ _ hone, ih]

lemma PathHop.received_of_toDomain {w : PathHop} {h : Hooking.PathHop} (hw : w.toDomain = .ok h) :
    h.received = h := by
  obtain ⟨g, hg, hw⟩ := Outcome.bind_eq_ok.mp hw
  cases hw
  rw [Hooking.PathHop.received, required_received hg, Option.map_map]
  refine congrArg _ (Option.map_congr ?_)
  intro t _
  exact received_toDomain t

lemma PairTupleGNodeInt.received_of_toDomain {w : PairTupleGNodeInt} {p : Hooking.PairTupleGNodeInt}
    (hw : w.toDomain = .ok p) : p.received = p := by
  obtain ⟨g, hg, hw⟩ := Outcome.bind_eq_ok.mp hw
  cases hw
  rw [Hooking.PairTupleGNodeInt.received, required_received hg]

/-- A level that was decoded fits its field. -/
lemma clampU32_toNat (n : UInt32) : clampU32 n.toNat = n.toNat := by
  have hn := n.toNat_lt
  rw [clampU32]
  omega

lemma clampI32_toInt (i : Int32) : clampI32 (max i.toInt 0).toNat = (max i.toInt 0).toNat := by
  have hi := i.toInt_lt
  rw [clampI32]
  omega

lemma SearchMigrationPathRequest.received_of_toDomain {w : SearchMigrationPathRequest}
    {r : Hooking.SearchMigrationPathRequest} (hw : w.toDomain = .ok r) : r.received = r := by
  obtain ⟨origin, horigin, hw⟩ := Outcome.bind_eq_ok.mp hw
  obtain ⟨caller, hcaller, hw⟩ := Outcome.bind_eq_ok.mp hw
  obtain ⟨pathHops, hhops, hw⟩ := Outcome.bind_eq_ok.mp hw
  cases hw
  simp only [Hooking.SearchMigrationPathRequest.received, required_received horigin,
    required_received hcaller, clampU32_toNat,
    map_received_of_mapM (fun _ _ => PathHop.received_of_toDomain) hhops]

lemma SearchMigrationPathErrorPkt.received_of_toDomain {w : SearchMigrationPathErrorPkt}
    {p : Hooking.SearchMigrationPathErrorPkt} (hw : w.toDomain = .ok p) : p.received = p := by
  obtain ⟨origin, horigin, hw⟩ := Outcome.bind_eq_ok.mp hw
  cases hw
  rw [Hooking.SearchMigrationPathErrorPkt.received, required_received horigin]

/-- An optional position that was decoded fits its field. -/
lemma filter_i32OptU32 (v : Int32) :
    (i32OptU32 v).filter (fun p => decide (p.toNat < 2 ^ 31)) = i32OptU32 v := by
  rw [Hooking.SearchMigrationPathResponse.filter_pos_eq_self]
  intro p hp
  rw [i32OptU32, tryFromU32] at hp
  split_ifs at hp with h
  cases hp
  refine (asI32_nonneg_iff _).mp ?_
  rwa [asI32, Int32.toInt32_toUInt32]

/-- An optional eldership that was decoded is not the one for none. -/
lemma filter_i32OptI32 (v : Int32) :
    (i32OptI32 v).filter (fun e => decide (e ≠ -1)) = i32OptI32 v := by
  rw [i32OptI32]
  split_ifs with h
  · rfl
  · simp [h]

lemma SearchMigrationPathResponse.received_of_toDomain {w : SearchMigrationPathResponse}
    {r : Hooking.SearchMigrationPathResponse} (hw : w.toDomain = .ok r) : r.received = r := by
  obtain ⟨origin, horigin, hw⟩ := Outcome.bind_eq_ok.mp hw
  obtain ⟨setAdjacent, hset, hw⟩ := Outcome.bind_eq_ok.mp hw
  cases hw
  simp only [Hooking.SearchMigrationPathResponse.received, required_received horigin,
    clampU32_toNat, clampI32_toInt, filter_i32OptU32, filter_i32OptI32,
    map_received_of_mapM (fun _ _ => PairTupleGNodeInt.received_of_toDomain) hset]

lemma ExploreGNodeRequest.received_of_toDomain {w : ExploreGNodeRequest}
    {r : Hooking.ExploreGNodeRequest} (hw : w.toDomain = .ok r) : r.received = r := by
  obtain ⟨origin, horigin, hw⟩ := Outcome.bind_eq_ok.mp hw
  obtain ⟨pathHops, hhops, hw⟩ := Outcome.bind_eq_ok.mp hw
  cases hw
  simp only [Hooking.ExploreGNodeRequest.received, required_received horigin, clampU32_toNat,
    map_received_of_mapM (fun _ _ => PathHop.received_of_toDomain) hhops]

lemma ExploreGNodeResponse.received_of_toDomain {w : ExploreGNodeResponse}
    {r : Hooking.ExploreGNodeResponse} (hw : w.toDomain = .ok r) : r.received = r := by
  obtain ⟨origin, horigin, hw⟩ := Outcome.bind_eq_ok.mp hw
  obtain ⟨result, hresult, hw⟩ := Outcome.bind_eq_ok.mp hw
  cases hw
  rw [Hooking.ExploreGNodeResponse.received, required_received horigin, required_received hresult]

lemma DeleteReservationRequest.received_of_toDomain {w : DeleteReservationRequest}
    {r : Hooking.DeleteReservationRequest} (hw : w.toDomain = .ok r) : r.received = r := by
  obtain ⟨dest, hdest, hw⟩ := Outcome.bind_eq_ok.mp hw
  cases hw
  rw [Hooking.DeleteReservationRequest.received, required_received hdest]

lemma RequestPacket.received_of_toDomain {w : RequestPacket} {p : Hooking.RequestPacket}
    (hw : w.toDomain = .ok p) : p.received = p := by
  obtain ⟨dest, hdest, hw⟩ := Outcome.bind_eq_ok.mp hw
  obtain ⟨src, hsrc, hw⟩ := Outcome.bind_eq_ok.mp hw
  obtain ⟨operation, -, hw⟩ := Outcome.bind_eq_ok.mp hw
  obtain ⟨host, hhost, hw⟩ := Outcome.bind_eq_ok.mp hw
  cases hw
  simp only [Hooking.RequestPacket.received, required_received hdest, required_received hsrc,
    required_received hhost]

lemma ResponsePacket.received_of_toDomain {w : ResponsePacket} {p : Hooking.ResponsePacket}
    (hw : w.toDomain = .ok p) : p.received = p := by
  obtain ⟨dest, hdest, hw⟩ := Outcome.bind_eq_ok.mp hw
  cases hw
  rw [Hooking.ResponsePacket.received, required_received hdest]

end V1

end Netsukuku.Hooking
