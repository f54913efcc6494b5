import Mathlib
import Netsukuku.Hooking.Wire
import Netsukuku.Proto.Messages

/-!
# The messages of `hooking.proto`

Each message with the numbers and the kinds of its fields.  A tuple is absent or present; every
number is left out at 0, the sentinel -1 takes ten bytes.

* `packets_handedOn` — under any such encoding, what a node accepted goes on unchanged; which
  answers arrive as they were composed.
* `protoPackets` — the encoding of the protocol file.
-/

namespace Netsukuku.Hooking

open Protobuf

namespace V1

def TupleGNode.codec : MessageCodec TupleGNode where
  fields m :=
    numbered 1 ((FieldCodec.packed .uint32).encode m.pos) ++
      numbered 2 ((FieldCodec.packed .int32).encode m.eldership)
  read fs := do
    let pos ← (FieldCodec.packed .uint32).decode (occurrences 1 fs)
    let eldership ← (FieldCodec.packed .int32).decode (occurrences 2 fs)
    some ⟨pos, eldership⟩
  read_fields m := by simp

/-- A field that holds a tuple. -/
def tuple : FieldCodec (Option TupleGNode) := .embedded TupleGNode.codec

def PathHop.codec : MessageCodec PathHop where
  fields m :=
    numbered 1 (tuple.encode m.visitingGnode) ++
      numbered 2 (tuple.encode m.previousMigratingGnode)
  read fs := do
    let visitingGnode ← tuple.decode (occurrences 1 fs)
    let previousMigratingGnode ← tuple.decode (occurrences 2 fs)
    some ⟨visitingGnode, previousMigratingGnode⟩
  read_fields m := by simp

def PairTupleGNodeInt.codec : MessageCodec PairTupleGNodeInt where
  fields m :=
    numbered 1 (tuple.encode m.gnode) ++
      numbered 2 ((FieldCodec.scalar .uint32 0).encode m.borderRealPos)
  read fs := do
    let gnode ← tuple.decode (occurrences 1 fs)
    let borderRealPos ← (FieldCodec.scalar .uint32 0).decode (occurrences 2 fs)
    some ⟨gnode, borderRealPos⟩
  read_fields m := by simp

def SearchMigrationPathRequest.codec : MessageCodec SearchMigrationPathRequest where
  fields m :=
    numbered 1 ((FieldCodec.scalar .int32 0).encode m.pktId) ++
      numbered 2 (tuple.encode m.origin) ++
      numbered 3 (tuple.encode m.caller) ++
      numbered 4 ((FieldCodec.repeated PathHop.codec).encode m.pathHops) ++
      numbered 5 ((FieldCodec.scalar .uint32 0).encode m.maxHostLvl) ++
      numbered 6 ((FieldCodec.scalar .int32 0).encode m.reserveRequestId)
  read fs := do
    let pktId ← (FieldCodec.scalar .int32 0).decode (occurrences 1 fs)
    let origin ← tuple.decode (occurrences 2 fs)
    let caller ← tuple.decode (occurrences 3 fs)
    let pathHops ← (FieldCodec.repeated PathHop.codec).decode (occurrences 4 fs)
    let maxHostLvl ← (FieldCodec.scalar .uint32 0).decode (occurrences 5 fs)
    let reserveRequestId ← (FieldCodec.scalar .int32 0).decode (occurrences 6 fs)
    some ⟨pktId, origin, caller, pathHops, maxHostLvl, reserveRequestId⟩
  read_fields m := by simp

def SearchMigrationPathErrorPkt.codec : MessageCodec SearchMigrationPathErrorPkt where
  fields m :=
    numbered 1 ((FieldCodec.scalar .int32 0).encode m.pktId) ++
      numbered 2 (tuple.encode m.origin)
  read fs := do
    let pktId ← (FieldCodec.scalar .int32 0).decode (occurrences 1 fs)
    let origin ← tuple.decode (occurrences 2 fs)
    some ⟨pktId, origin⟩
  read_fields m := by simp

def SearchMigrationPathResponse.codec : MessageCodec SearchMigrationPathResponse where
  fields m :=
    numbered 1 ((FieldCodec.scalar .int32 0).encode m.pktId) ++
      numbered 2 (tuple.encode m.origin) ++
      numbered 3 ((FieldCodec.scalar .uint32 0).encode m.minHostLvl) ++
      numbered 4 ((FieldCodec.repeated PairTupleGNodeInt.codec).encode m.setAdjacent) ++
      numbered 5 ((FieldCodec.scalar .int32 0).encode m.finalHostLvl) ++
      numbered 6 ((FieldCodec.scalar .int32 0).encode m.realNewPos) ++
      numbered 7 ((FieldCodec.scalar .int32 0).encode m.realNewEldership) ++
      numbered 8 ((FieldCodec.scalar .int32 0).encode m.newConnVirPos) ++
      numbered 9 ((FieldCodec.scalar .int32 0).encode m.newEldership)
  read fs := do
    let pktId ← (FieldCodec.scalar .int32 0).decode (occurrences 1 fs)
    let origin ← tuple.decode (occurrences 2 fs)
    let minHostLvl ← (FieldCodec.scalar .uint32 0).decode (occurrences 3 fs)
    let setAdjacent ← (FieldCodec.repeated PairTupleGNodeInt.codec).decode (occurrences 4 fs)
    let finalHostLvl ← (FieldCodec.scalar .int32 0).decode (occurrences 5 fs)
    let realNewPos ← (FieldCodec.scalar .int32 0).decode (occurrences 6 fs)
    let realNewEldership ← (FieldCodec.scalar .int32 0).decode (occurrences 7 fs)
    let newConnVirPos ← (FieldCodec.scalar .int32 0).decode (occurrences 8 fs)
    let newEldership ← (FieldCodec.scalar .int32 0).decode (occurrences 9 fs)
    some ⟨pktId, origin, minHostLvl, setAdjacent, finalHostLvl, realNewPos, realNewEldership,
      newConnVirPos, newEldership⟩
  read_fields m := by simp

def ExploreGNodeRequest.codec : MessageCodec ExploreGNodeRequest where
  fields m :=
    numbered 1 ((FieldCodec.scalar .int32 0).encode m.pktId) ++
      numbered 2 (tuple.encode m.origin) ++
      numbered 3 ((FieldCodec.repeated PathHop.codec).encode m.pathHops) ++
      numbered 4 ((FieldCodec.scalar .uint32 0).encode m.requestedLvl)
  read fs := do
    let pktId ← (FieldCodec.scalar .int32 0).decode (occurrences 1 fs)
    let origin ← tuple.decode (occurrences 2 fs)
    let pathHops ← (FieldCodec.repeated PathHop.codec).decode (occurrences 3 fs)
    let requestedLvl ← (FieldCodec.scalar .uint32 0).decode (occurrences 4 fs)
    some ⟨pktId, origin, pathHops, requestedLvl⟩
  read_fields m := by simp

def ExploreGNodeResponse.codec : MessageCodec ExploreGNodeResponse where
  fields m :=
    numbered 1 ((FieldCodec.scalar .int32 0).encode m.pktId) ++
      numbered 2 (tuple.encode m.origin) ++
      numbered 3 (tuple.encode m.result)
  read fs := do
    let pktId ← (FieldCodec.scalar .int32 0).decode (occurrences 1 fs)
    let origin ← tuple.decode (occurrences 2 fs)
    let result ← tuple.decode (occurrences 3 fs)
    some ⟨pktId, origin, result⟩
  read_fields m := by simp

def DeleteReservationRequest.codec : MessageCodec DeleteReservationRequest where
  fields m :=
    numbered 1 (tuple.encode m.destGnode) ++
      numbered 2 ((FieldCodec.scalar .int32 0).encode m.reserveRequestId)
  read fs := do
    let destGnode ← tuple.decode (occurrences 1 fs)
    let reserveRequestId ← (FieldCodec.scalar .int32 0).decode (occurrences 2 fs)
    some ⟨destGnode, reserveRequestId⟩
  read_fields m := by simp

/-- An enumeration is a number on the wire, also one that no variant has. -/
def RequestPacket.codec : MessageCodec RequestPacket where
  fields m :=
    numbered 1 ((FieldCodec.scalar .int32 0).encode m.pktId) ++
      numbered 2 (tuple.encode m.dest) ++
      numbered 3 (tuple.encode m.src) ++
      numbered 4 ((FieldCodec.scalar .int32 0).encode m.operation) ++
      numbered 5 ((FieldCodec.scalar .int32 0).encode m.migrationId) ++
      numbered 6 ((FieldCodec.scalar .int32 0).encode m.connGnodePos) ++
      numbered 7 (tuple.encode m.hostGnode) ++
      numbered 8 ((FieldCodec.scalar .int32 0).encode m.realNewPos) ++
      numbered 9 ((FieldCodec.scalar .int32 0).encode m.realNewEldership)
  read fs := do
    let pktId ← (FieldCodec.scalar .int32 0).decode (occurrences 1 fs)
    let dest ← tuple.decode (occurrences 2 fs)
    let src ← tuple.decode (occurrences 3 fs)
    let operation ← (FieldCodec.scalar .int32 0).decode (occurrences 4 fs)
    let migrationId ← (FieldCodec.scalar .int32 0).decode (occurrences 5 fs)
    let connGnodePos ← (FieldCodec.scalar .int32 0).decode (occurrences 6 fs)
    let hostGnode ← tuple.decode (occurrences 7 fs)
    let realNewPos ← (FieldCodec.scalar .int32 0).decode (occurrences 8 fs)
    let realNewEldership ← (FieldCodec.scalar .int32 0).decode (occurrences 9 fs)
    some ⟨pktId, dest, src, operation, migrationId, connGnodePos, hostGnode, realNewPos,
      realNewEldership⟩
  read_fields m := by simp

def ResponsePacket.codec : MessageCodec ResponsePacket where
  fields m :=
    numbered 1 ((FieldCodec.scalar .int32 0).encode m.pktId) ++
      numbered 2 (tuple.encode m.dest)
  read fs := do
    let pktId ← (FieldCodec.scalar .int32 0).decode (occurrences 1 fs)
    let dest ← tuple.decode (occurrences 2 fs)
    some ⟨pktId, dest⟩
  read_fields m := by simp

end V1

/-! ## The packets handed on -/

/-- The `prost` encodings of the packets. -/
structure PacketProsts where
  searchRequest : Prost V1.SearchMigrationPathRequest
  searchError : Prost V1.SearchMigrationPathErrorPkt
  searchResponse : Prost V1.SearchMigrationPathResponse
  exploreRequest : Prost V1.ExploreGNodeRequest
  exploreResponse : Prost V1.ExploreGNodeResponse
  deleteReserveRequest : Prost V1.DeleteReservationRequest
  migRequest : Prost V1.RequestPacket
  migResponse : Prost V1.ResponsePacket

/-- Each decodes what it encoded. -/
structure PacketProsts.Decode (p : PacketProsts) : Prop where
  searchRequest : ∀ w, p.searchRequest.Decodes w
  searchError : ∀ w, p.searchError.Decodes w
  searchResponse : ∀ w, p.searchResponse.Decodes w
  exploreRequest : ∀ w, p.exploreRequest.Decodes w
  exploreResponse : ∀ w, p.exploreResponse.Decodes w
  deleteReserveRequest : ∀ w, p.deleteReserveRequest.Decodes w
  migRequest : ∀ w, p.migRequest.Decodes w
  migResponse : ∀ w, p.migResponse.Decodes w

/-- **A packet is handed on unchanged.**  Whatever a node accepts from a peer, the next node decodes
from it just what this one did, over any number of hops; and an answer arrives as it was composed
exactly if its numbers fit and none of them stands for one that is not set. -/
theorem packets_handedOn (p : PacketProsts) (h : p.Decode) :
    (HandsOn (encodeSearchRequest p.searchRequest) (decodeSearchRequest p.searchRequest) ∧
      HandsOn (encodeSearchError p.searchError) (decodeSearchError p.searchError) ∧
      HandsOn (encodeSearchResponse p.searchResponse) (decodeSearchResponse p.searchResponse) ∧
      HandsOn (encodeExploreRequest p.exploreRequest) (decodeExploreRequest p.exploreRequest) ∧
      HandsOn (encodeExploreResponse p.exploreResponse) (decodeExploreResponse p.exploreResponse) ∧
      HandsOn (encodeDeleteReserveRequest p.deleteReserveRequest)
        (decodeDeleteReserveRequest p.deleteReserveRequest) ∧
      HandsOn (encodeMigRequest p.migRequest) (decodeMigRequest p.migRequest) ∧
      HandsOn (encodeMigResponse p.migResponse) (decodeMigResponse p.migResponse)) ∧
    ∀ r, decodeSearchResponse p.searchResponse (encodeSearchResponse p.searchResponse r) = .ok r ↔
      r.Sendable := by
  refine ⟨⟨?_, ?_, ?_, ?_, ?_, ?_, ?_, ?_⟩, ?_⟩
  · exact handsOn_packet h.searchRequest _ V1.SearchMigrationPathRequest.toDomain_ofDomain
      fun _ _ => V1.SearchMigrationPathRequest.received_of_toDomain
  · exact handsOn_packet h.searchError _ (fun _ => rfl)
      fun _ _ => V1.SearchMigrationPathErrorPkt.received_of_toDomain
  · exact handsOn_packet h.searchResponse _ V1.SearchMigrationPathResponse.toDomain_ofDomain
      fun _ _ => V1.SearchMigrationPathResponse.received_of_toDomain
  · exact handsOn_packet h.exploreRequest _ V1.ExploreGNodeRequest.toDomain_ofDomain
      fun _ _ => V1.ExploreGNodeRequest.received_of_toDomain
  · exact handsOn_packet h.exploreResponse _ (fun _ => rfl)
      fun _ _ => V1.ExploreGNodeResponse.received_of_toDomain
  · exact handsOn_packet h.deleteReserveRequest _ (fun _ => rfl)
      fun _ _ => V1.DeleteReservationRequest.received_of_toDomain
  · exact handsOn_packet h.migRequest _ V1.RequestPacket.toDomain_ofDomain
      fun _ _ => V1.RequestPacket.received_of_toDomain
  · exact handsOn_packet h.migResponse _ (fun _ => rfl)
      fun _ _ => V1.ResponsePacket.received_of_toDomain
  · intro r
    rw [decodeSearchResponse_encode h.searchResponse, Except.ok.injEq,
      SearchMigrationPathResponse.received_eq_self]

/-- The eight packets in that encoding. -/
def protoPackets : PacketProsts where
  searchRequest := V1.SearchMigrationPathRequest.codec.prost
  searchError := V1.SearchMigrationPathErrorPkt.codec.prost
  searchResponse := V1.SearchMigrationPathResponse.codec.prost
  exploreRequest := V1.ExploreGNodeRequest.codec.prost
  exploreResponse := V1.ExploreGNodeResponse.codec.prost
  deleteReserveRequest := V1.DeleteReservationRequest.codec.prost
  migRequest := V1.RequestPacket.codec.prost
  migResponse := V1.ResponsePacket.codec.prost

lemma protoPackets_decode : protoPackets.Decode where
  searchRequest := MessageCodec.prost_decodes _
  searchError := MessageCodec.prost_decodes _
  searchResponse := MessageCodec.prost_decodes _
  exploreRequest := MessageCodec.prost_decodes _
  exploreResponse := MessageCodec.prost_decodes _
  deleteReserveRequest := MessageCodec.prost_decodes _
  migRequest := MessageCodec.prost_decodes _
  migResponse := MessageCodec.prost_decodes _

/-- An answer to a tuple that came without its eldership. -/
def barePacket : ResponsePacket := ⟨5, ⟨[2], []⟩⟩

example : (encodeMigResponse protoPackets.migResponse barePacket).payload =
    [8, 5, 18, 3, 10, 1, 2] := by decide +kernel

/-- An answer that has an eldership of -1. -/
def unsetAnswer : SearchMigrationPathResponse := ⟨5, ⟨[2], [0]⟩, 1, [], 1, some 3, some (-1), none, none⟩

theorem packets_handedOn_proto : ∃ v,
    decodeMigResponse protoPackets.migResponse
      (encodeMigResponse protoPackets.migResponse barePacket) = .ok v ∧
    v.dest.eldership = [-1] ∧
    decodeMigResponse protoPackets.migResponse
      (encodeMigResponse protoPackets.migResponse v) = .ok v ∧
    decodeSearchResponse protoPackets.searchResponse
      (encodeSearchResponse protoPackets.searchResponse unsetAnswer) ≠ .ok unsetAnswer := by
  obtain ⟨⟨-, -, -, -, -, -, -, hmig⟩, hanswer⟩ :=
    packets_handedOn protoPackets protoPackets_decode
  have hdecode := decodeMigResponse_encode protoPackets_decode.migResponse barePacket
  exact ⟨barePacket.received, hdecode, rfl, hmig _ _ hdecode,
    fun hsame => ((hanswer unsetAnswer).mp hsame).realNewEldership rfl⟩

end Netsukuku.Hooking
