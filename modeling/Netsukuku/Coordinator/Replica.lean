import Mathlib
import Netsukuku.Coordinator.Actor

/-!
# How a record travels to another servant

A clock reading means nothing on another machine, so the wire has the milliseconds a booking had
left when the record was packed, and the receiver counts them from its own reading.

* `gnodeMemoryToWire`, `gnodeMemoryFromWire` — the two directions; what a peer sends is bounded.
* `Booking.transported` — what a booking has become after both: it ends that many whole
  milliseconds after the decoding (`gnodeMemoryFromWire_toWire`).
-/

namespace Netsukuku

/-- A booking on the wire. -/
structure WireBooking where
  reserveRequestId : Int64
  newPos : ℕ
  newEldership : ℕ
  timeoutRemainingMs : Int64
  deriving DecidableEq, Repr

/-- A record on the wire. -/
structure WireGnodeMemory (V : Type) where
  reserveList : List WireBooking
  maxVirtualPos : ℕ
  maxEldership : ℕ
  nNodes : Option ℕ
  nNodesTimeoutRemainingMs : Option Int64
  hookingMemory : Option V

/-- One millisecond, in nanoseconds. -/
def msec : ℕ := 1000000

/-- `MAX_REPLICA_TTL_MS`. -/
def maxReplicaTtlMs : ℕ := 60 * 60 * 1000

/-- `MAX_REPLICA_BOOKINGS`. -/
def maxReplicaBookings : ℕ := 4096

/-- `MAX_REPLICA_VIRTUAL_POS`, half of `u32::MAX`. -/
def maxReplicaVirtualPos : ℕ := (2 ^ 32 - 1) / 2

/-- `duration_remaining_ms`: whole milliseconds, none if the deadline has passed. -/
def durationRemainingMs (deadline now : ℕ) : Int64 :=
  Int64.ofNat (min ((deadline - now) / msec) (2 ^ 63 - 1))

/-- The milliseconds a peer says are left, as far as they are believed. -/
def believedMs (remaining : Int64) : ℕ := min remaining.toInt.toNat maxReplicaTtlMs

/-- `booking_to_wire`. -/
def bookingToWire (b : Booking) (now : ℕ) : WireBooking :=
  ⟨b.reserveRequestId, b.newPos, b.newEldership, durationRemainingMs b.expiresAt now⟩

/-- `booking_from_wire`. -/
def bookingFromWire (w : WireBooking) (now : ℕ) : Booking :=
  ⟨w.reserveRequestId, w.newPos, w.newEldership, now + msec * believedMs w.timeoutRemainingMs⟩

variable {V : Type}

/-- `gnode_memory_to_wire`. -/
def gnodeMemoryToWire (m : GnodeMemory V) (now : ℕ) : WireGnodeMemory V where
  reserveList := m.reserveList.map fun b => bookingToWire b now
  maxVirtualPos := m.maxVirtualPos
  maxEldership := m.maxEldership
  nNodes := m.nNodes.map Prod.fst
  nNodesTimeoutRemainingMs := m.nNodes.map fun e => durationRemainingMs e.2 now
  hookingMemory := m.hookingMemory

/-- `gnode_memory_from_wire`. -/
def gnodeMemoryFromWire (w : WireGnodeMemory V) (now : ℕ) : GnodeMemory V where
  reserveList := (w.reserveList.take maxReplicaBookings).map fun b => bookingFromWire b now
  maxVirtualPos := min w.maxVirtualPos maxReplicaVirtualPos
  maxEldership := w.maxEldership
  nNodes := w.nNodes.map fun n =>
    (n, now + msec * believedMs (w.nNodesTimeoutRemainingMs.getD 0))
  hookingMemory := w.hookingMemory

/-- A booking packed at one instant and decoded at another. -/
def Booking.transported (b : Booking) (packedAt decodedAt : ℕ) : Booking :=
  { b with
    expiresAt := decodedAt + msec * min ((b.expiresAt - packedAt) / msec) maxReplicaTtlMs }

/-- The cap of the wire type lies far above the one of the receiver. -/
lemma believedMs_durationRemainingMs (deadline now : ℕ) :
    believedMs (durationRemainingMs deadline now) =
      min ((deadline - now) / msec) maxReplicaTtlMs := by
  have hint : (durationRemainingMs deadline now).toInt =
      (min ((deadline - now) / msec) (2 ^ 63 - 1) : ℕ) :=
    Int64.toInt_ofNat_of_lt (by omega)
  rw [believedMs, hint, Int.toNat_natCast, maxReplicaTtlMs]
  omega

lemma bookingFromWire_toWire (b : Booking) (packedAt decodedAt : ℕ) :
    bookingFromWire (bookingToWire b packedAt) decodedAt = b.transported packedAt decodedAt := by
  simp only [bookingFromWire, bookingToWire, believedMs_durationRemainingMs, Booking.transported]

/-- What has become of the bookings of a record on arrival. -/
theorem gnodeMemoryFromWire_toWire (m : GnodeMemory V) (packedAt decodedAt : ℕ) :
    (gnodeMemoryFromWire (gnodeMemoryToWire m packedAt) decodedAt).reserveList =
        (m.reserveList.take maxReplicaBookings).map fun b => b.transported packedAt decodedAt := by
  simp only [gnodeMemoryFromWire, gnodeMemoryToWire, ← List.map_take, List.map_map,
    Function.comp_def, bookingFromWire_toWire]

/-- A booking of at most an hour that takes a millisecond or more on the way is not cut short. -/
lemma Booking.le_transported {b : Booking} {packedAt decodedAt : ℕ}
    (httl : b.expiresAt ≤ packedAt + msec * maxReplicaTtlMs) (hway : packedAt + msec ≤ decodedAt) :
    b.expiresAt ≤ (b.transported packedAt decodedAt).expiresAt := by
  have hms : (b.expiresAt - packedAt) / msec ≤ maxReplicaTtlMs := by
    refine Nat.div_le_of_le_mul ?_
    omega
  have hrest : b.expiresAt - packedAt < msec * ((b.expiresAt - packedAt) / msec + 1) :=
    Nat.lt_mul_div_succ _ (by decide)
  rw [Booking.transported, min_eq_left hms]
  rw [Nat.mul_add, Nat.mul_one] at hrest
  show b.expiresAt ≤ decodedAt + msec * ((b.expiresAt - packedAt) / msec)
  omega

/-- A booking that had run out when the record was packed has run out on arrival. -/
lemma Booking.transported_expired {b : Booking} {packedAt decodedAt : ℕ}
    (hout : b.expiresAt ≤ packedAt) : (b.transported packedAt decodedAt).expiresAt = decodedAt := by
  rw [Booking.transported, Nat.sub_eq_zero_of_le hout]
  simp

end Netsukuku
