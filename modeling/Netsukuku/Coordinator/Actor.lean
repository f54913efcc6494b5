import Mathlib
import Netsukuku.Core.KeyedMap
import Netsukuku.Common.Address

/-!
# The coordinator's fixed-keys database

The coordinator of a g-node hands out places in it.  Its database has one record per `top`, the
level above the places handed out: the bookings made so far, the counters for virtual positions
and for elderships, and a scratch memory of the hooking module.

* `CoordState.reserveEnter` — a place for a request id, real if one is free, else virtual; asking
  again with the same id gives the same place.
* `CoordState.applyReplica` — the record of a `top` as another servant, or this one earlier, had
  it.
* `CoordState.handle` — the commands on the database.

An instant is a number of nanoseconds, and so is the life of a booking.  What the routing map says
at the moment of a command comes as a `CoordinatorMap`.
-/

namespace Netsukuku

/-- One booked position. -/
structure Booking where
  reserveRequestId : Int64
  newPos : ℕ
  newEldership : ℕ
  expiresAt : ℕ
  deriving DecidableEq, Repr

/-- The record of one `top`; `V` is the type of the hooking module's scratch value. -/
structure GnodeMemory (V : Type) where
  reserveList : List Booking
  maxVirtualPos : ℕ
  maxEldership : ℕ
  nNodes : Option (ℕ × ℕ)
  hookingMemory : Option V

namespace GnodeMemory

variable {V : Type}

/-- `GnodeMemory::fresh`. -/
def fresh (gsize : ℕ) : GnodeMemory V := ⟨[], gsize, 0, none, none⟩

/-- The bookings not expired at `now`. -/
def live (m : GnodeMemory V) (now : ℕ) : List Booking :=
  m.reserveList.filter fun b => decide (now < b.expiresAt)

end GnodeMemory

structure Reservation where
  newPos : ℕ
  newEldership : ℕ
  deriving DecidableEq, Repr

inductive ReserveError where
  | topOutOfRange (top : ℕ)
  | cannotReserve (top : ℕ)
  deriving DecidableEq, Repr

/-- What the routing map says when a command is handled.  The free positions are real ones. -/
structure CoordinatorMap (t : Topology) where
  nNodes : ℕ
  freePositions : ℕ → List ℕ
  canReserve : ℕ → Bool
  free_real : ∀ level, ∀ p ∈ freePositions level, ∀ g ∈ t.gsize level, p < g.toNat

/-- The database, and its copy on the watch channel. -/
structure CoordState (t : Topology) (V : Type) where
  bookingTtl : ℕ
  nNodesCacheTtl : ℕ
  memory : KeyedMap ℕ (GnodeMemory V)
  snapshot : KeyedMap ℕ (GnodeMemory V)

/-- The commands on the database. -/
inductive CoordCmd (V : Type) where
  | numberOfNodes
  | reserveEnter (top : ℕ) (requestId : Int64)
  | deleteReserveEnter (top : ℕ) (requestId : Int64)
  | setHookingMemory (top : ℕ) (data : Option V)
  | applyReplica (top : ℕ) (memory : GnodeMemory V)
  | invalidateNNodes

/-- The first booking of `requestId` gets a new expiry. -/
def renewFirst (requestId : Int64) (expiresAt : ℕ) : List Booking → List Booking
  | [] => []
  | b :: l =>
      if b.reserveRequestId = requestId then { b with expiresAt := expiresAt } :: l
      else b :: renewFirst requestId expiresAt l

namespace CoordState

variable {t : Topology} {V : Type}

/-- `Manager::new`: each level's record from the hand-off, or a fresh one. -/
def new (bookingTtl nNodesCacheTtl : ℕ) (handoff : KeyedMap ℕ (GnodeMemory V)) :
    CoordState t V :=
  let memory : KeyedMap ℕ (GnodeMemory V) :=
    { entries := t.gsizes.zipIdx.map fun e =>
        (e.2 + 1, (handoff.get? (e.2 + 1)).getD (GnodeMemory.fresh e.1.toNat))
      nodup := by
        have hkeys : (t.gsizes.zipIdx.map fun e => e.2 + 1) =
            (t.gsizes.zipIdx.map Prod.snd).map (· + 1) := by
          rw [List.map_map]
          rfl
        rw [List.map_map]
        show (t.gsizes.zipIdx.map fun e => e.2 + 1).Nodup
        rw [hkeys, List.zipIdx_map_snd]
        exact List.Nodup.map (add_left_injective 1) List.nodup_range' }
  ⟨bookingTtl, nNodesCacheTtl, memory, memory⟩

/-- `publish_snapshot`. -/
def publishSnapshot (s : CoordState t V) : CoordState t V := { s with snapshot := s.memory }

/-- A record is written and the database published. -/
def store (s : CoordState t V) (top : ℕ) (mem : GnodeMemory V) : CoordState t V :=
  publishSnapshot { s with memory := s.memory.insertOrdered top mem }

/-- The position granted: the first free one not booked, else the next virtual one. -/
def choosePos (free taken : List ℕ) (maxVirtualPos : ℕ) : Outcome ReserveError (ℕ × ℕ) :=
  match free.find? fun p => decide (p ∉ taken) with
  | some p => .ok (p, maxVirtualPos)
  | none => do
      let next ← Outcome.checkedAdd 32 maxVirtualPos 1
      .ok (next, next)

/-- A booking made for a request id not met among the `live` ones. -/
def grant (free : List ℕ) (live : List Booking) (mem : GnodeMemory V) (requestId : Int64)
    (expiresAt : ℕ) : Outcome ReserveError (GnodeMemory V × Reservation) := do
  let (newPos, maxVirtualPos) ← choosePos free (live.map Booking.newPos) mem.maxVirtualPos
  let newEldership ← Outcome.checkedAdd 64 mem.maxEldership 1
  .ok ({ mem with
      reserveList := live ++ [⟨requestId, newPos, newEldership, expiresAt⟩]
      maxVirtualPos := maxVirtualPos
      maxEldership := newEldership }, ⟨newPos, newEldership⟩)

/-- `reserve_enter`: expired bookings go first, then a booking of the same request id is renewed,
else a new one is made. -/
def reserveEnter (s : CoordState t V) (map : CoordinatorMap t) (now top : ℕ) (requestId : Int64) :
    CoordState t V × Outcome ReserveError Reservation :=
  if top < 1 ∨ t.levels < top then (s, Outcome.fail (.topOutOfRange top))
  else if !map.canReserve (top - 1) then (s, Outcome.fail (.cannotReserve top))
  else
    match s.memory.get? top with
    | none => (s, .error (.panic "every top in 1..=levels is pre-populated at construction"))
    | some mem =>
        let live := mem.live now
        match live.find? fun b => decide (b.reserveRequestId = requestId) with
        | some existing =>
            (s.store top { mem with reserveList := renewFirst requestId (now + s.bookingTtl) live },
              .ok ⟨existing.newPos, existing.newEldership⟩)
        | none =>
            match grant (map.freePositions (top - 1)) live mem requestId (now + s.bookingTtl) with
            | .error e => (s, .error e)
            | .ok (mem', reservation) => (s.store top mem', .ok reservation)

/-- `delete_reserve_enter`. -/
def deleteReserveEnter (s : CoordState t V) (top : ℕ) (requestId : Int64) : CoordState t V :=
  match s.memory.get? top with
  | some mem => s.store top
      { mem with reserveList := mem.reserveList.filter fun b => b.reserveRequestId ≠ requestId }
  | none => s.publishSnapshot

/-- `number_of_nodes`: a count not yet expired is answered from the cache. -/
def numberOfNodes (s : CoordState t V) (map : CoordinatorMap t) (now : ℕ) : CoordState t V :=
  match s.memory.get? t.levels with
  | some mem =>
      if mem.nNodes.any fun e => decide (now < e.2) then s
      else s.store t.levels { mem with nNodes := some (map.nNodes, now + s.nNodesCacheTtl) }
  | none => s

/-- `invalidate_n_nodes`. -/
def invalidateNNodes (s : CoordState t V) : CoordState t V :=
  match s.memory.get? t.levels with
  | some mem => s.store t.levels { mem with nNodes := none }
  | none => s.publishSnapshot

/-- `set_hooking_memory`. -/
def setHookingMemory (s : CoordState t V) (top : ℕ) (data : Option V) : CoordState t V :=
  match s.memory.get? top with
  | some mem => s.store top { mem with hookingMemory := data }
  | none => s.publishSnapshot

/-- `apply_replica`: the whole record but the local count of nodes is replaced. -/
def applyReplica (s : CoordState t V) (top : ℕ) (memory : GnodeMemory V) : CoordState t V :=
  s.store top { memory with nNodes := (s.memory.get? top).bind GnodeMemory.nNodes }

/-- `State::handle` on the database: the state afterwards. -/
def handle (s : CoordState t V) (map : CoordinatorMap t) (now : ℕ) : CoordCmd V → CoordState t V
  | .numberOfNodes => s.numberOfNodes map now
  | .reserveEnter top requestId => (s.reserveEnter map now top requestId).1
  | .deleteReserveEnter top requestId => s.deleteReserveEnter top requestId
  | .setHookingMemory top data => s.setHookingMemory top data
  | .applyReplica top memory => s.applyReplica top memory
  | .invalidateNNodes => s.invalidateNNodes

/-- `memory_snapshot`: what `spawn_replicate` sends, read off the watch channel. -/
def memorySnapshot (s : CoordState t V) (top : ℕ) : Option (GnodeMemory V) := s.snapshot.get? top

end CoordState

end Netsukuku
