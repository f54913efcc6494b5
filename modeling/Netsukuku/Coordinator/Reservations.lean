import Mathlib
import Netsukuku.Coordinator.Replica

/-!
# No place is promised twice

What the clients of a coordinator hold is not in its database but in the answers it gave.  A
`Ledger` is that record, kept from the commands and the answers alone: which place each request
id was last promised and until when, and every grant in the order made.

* `CoordRun` — a servant's history, with the snapshots it packed for replication and gets back, at
  any later time and re-timed on the way, as replicas.
* `Orderly` — what a step must not do: bring back a record that has been superseded, cut a booking
  short, or turn away a request id that holds a booking.
* `TopInv` — the invariant for one `top`: what was promised is booked at least as long, what is
  booked was told to the client, ids and positions are distinct, and the counters are ahead of
  everything given out.
* `reservations_unique` — in orderly runs no two live bookings share a position, elderships grow,
  a repeated request gets its place again, and a place is a free one or virtual.
-/

namespace Netsukuku

/-- A new booking, as the client learns of it, with the positions that were free then. -/
structure Grant where
  top : ℕ
  requestId : Int64
  reservation : Reservation
  free : List ℕ

/-- What the clients were told: the last answer for each request id and `top`, and the grants. -/
structure Ledger where
  booked : List (ℕ × Booking)
  granted : List Grant

namespace Ledger

/-- Nothing promised yet. -/
def blank : Ledger := ⟨[], []⟩

/-- `requestId` was promised `b` at `top`; the promise was not given back and has not run out. -/
def Held (l : Ledger) (top : ℕ) (requestId : Int64) (now : ℕ) (b : Booking) : Prop :=
  (top, b) ∈ l.booked ∧ b.reserveRequestId = requestId ∧ now < b.expiresAt

/-- Whether `r` is the place that `requestId` was last told at `top`, and has not given back. -/
def knows (l : Ledger) (top : ℕ) (requestId : Int64) (r : Reservation) : Bool :=
  l.booked.any fun e => decide (e.1 = top ∧ e.2.reserveRequestId = requestId ∧
    e.2.newPos = r.newPos ∧ e.2.newEldership = r.newEldership)

/-- The entries of one request id at one `top` are struck out. -/
def release (l : Ledger) (top : ℕ) (requestId : Int64) : Ledger :=
  { l with booked := l.booked.filter fun e =>
      decide (¬ (e.1 = top ∧ e.2.reserveRequestId = requestId)) }

/-- An answer is noted.  It is a grant unless the client knows the place already. -/
def record (l : Ledger) (free : List ℕ) (now ttl top : ℕ) (requestId : Int64) (r : Reservation) :
    Ledger where
  booked := (l.release top requestId).booked ++
    [(top, ⟨requestId, r.newPos, r.newEldership, now + ttl⟩)]
  granted := if l.knows top requestId r then l.granted
    else l.granted ++ [⟨top, requestId, r, free⟩]

lemma knows_of_mem {l : Ledger} {top : ℕ} {b : Booking} (h : (top, b) ∈ l.booked) :
    l.knows top b.reserveRequestId ⟨b.newPos, b.newEldership⟩ = true := by
  simp only [knows, List.any_eq_true, decide_eq_true_eq]
  exact ⟨(top, b), h, rfl, rfl, rfl, rfl⟩

lemma mem_release {l : Ledger} {top top' : ℕ} {requestId : Int64} {b : Booking} :
    (top', b) ∈ (l.release top requestId).booked ↔
      (top', b) ∈ l.booked ∧ ¬ (top' = top ∧ b.reserveRequestId = requestId) := by
  simp only [release, List.mem_filter, decide_eq_true_eq]

lemma mem_record {l : Ledger} {free : List ℕ} {now ttl top top' : ℕ} {requestId : Int64}
    {r : Reservation} {b : Booking} :
    (top', b) ∈ (l.record free now ttl top requestId r).booked ↔
      (top', b) ∈ (l.release top requestId).booked ∨
        top' = top ∧ b = ⟨requestId, r.newPos, r.newEldership, now + ttl⟩ := by
  simp only [record, List.mem_append, List.mem_singleton, Prod.mk.injEq]

/-- What an answer can add to the grants. -/
lemma mem_granted {l : Ledger} {free : List ℕ} {now ttl top : ℕ} {requestId : Int64}
    {r : Reservation} {g : Grant} (h : g ∈ (l.record free now ttl top requestId r).granted) :
    g ∈ l.granted ∨ g = ⟨top, requestId, r, free⟩ := by
  simp only [record] at h
  split at h
  · exact Or.inl h
  · simpa using h

lemma pairwise_record {l : Ledger} {free : List ℕ} {now ttl top : ℕ} {requestId : Int64}
    {r : Reservation}
    (h : l.granted.Pairwise fun g g' => g.top = g'.top →
      g.reservation.newEldership < g'.reservation.newEldership)
    (hnew : ∀ g ∈ l.granted, g.top = top → g.reservation.newEldership < r.newEldership) :
    (l.record free now ttl top requestId r).granted.Pairwise fun g g' => g.top = g'.top →
      g.reservation.newEldership < g'.reservation.newEldership := by
  simp only [record]
  split
  · exact h
  · rw [List.pairwise_append]
    refine ⟨h, List.pairwise_singleton _ _, fun g hg g' hg' htop => ?_⟩
    rw [List.mem_singleton.mp hg'] at htop ⊢
    exact hnew g hg htop

/-- Another `top` does not see the answer. -/
lemma mem_record_of_ne {l : Ledger} {free : List ℕ} {now ttl top top' : ℕ} {requestId : Int64}
    {r : Reservation} (hne : top' ≠ top) {b : Booking} :
    (top', b) ∈ (l.record free now ttl top requestId r).booked ↔ (top', b) ∈ l.booked := by
  rw [mem_record, mem_release]
  simp [hne]

end Ledger

variable {t : Topology} {V : Type}

/-- A record on its way: the level it is for and the instant it was packed. -/
structure SentReplica (V : Type) where
  top : ℕ
  packedAt : ℕ
  memory : WireGnodeMemory V

/-- A servant's history: its database, the snapshots it sent, the time of the last command, and
the ledger of its clients.  Every command meets `C`, and a replica is one of the snapshots.  Other
commands may come between the reading of a snapshot and its packing, and between the decoding of a
replica and its turn in the queue. -/
inductive CoordRun (C : CoordState t V → CoordinatorMap t → ℕ → CoordCmd V → Prop)
    (bookingTtl nNodesCacheTtl : ℕ) :
    CoordState t V → List (SentReplica V) → ℕ → Ledger → Prop where
  | start (now : ℕ) :
      CoordRun C bookingTtl nNodesCacheTtl (.new bookingTtl nNodesCacheTtl KeyedMap.empty) [] now
        .blank
  | snapshot {s sent now packedAt l} {top : ℕ} {m : GnodeMemory V}
      (h : CoordRun C bookingTtl nNodesCacheTtl s sent now l) (htime : now ≤ packedAt)
      (hm : s.memorySnapshot top = some m) :
      CoordRun C bookingTtl nNodesCacheTtl s (⟨top, packedAt, gnodeMemoryToWire m packedAt⟩ :: sent)
        now l
  | reserved {s s' sent now now' l} {map : CoordinatorMap t} {top : ℕ} {requestId : Int64} {r}
      (h : CoordRun C bookingTtl nNodesCacheTtl s sent now l) (htime : now ≤ now')
      (hc : C s map now' (.reserveEnter top requestId))
      (hcall : s.reserveEnter map now' top requestId = (s', .ok r)) :
      CoordRun C bookingTtl nNodesCacheTtl s' sent now'
        (l.record (map.freePositions (top - 1)) now' bookingTtl top requestId r)
  | refused {s s' sent now now' l} {map : CoordinatorMap t} {top : ℕ} {requestId : Int64} {e}
      (h : CoordRun C bookingTtl nNodesCacheTtl s sent now l) (htime : now ≤ now')
      (hc : C s map now' (.reserveEnter top requestId))
      (hcall : s.reserveEnter map now' top requestId = (s', .error (.err e))) :
      CoordRun C bookingTtl nNodesCacheTtl s' sent now' l
  | deleted {s sent now now' l} {map : CoordinatorMap t} {top : ℕ} {requestId : Int64}
      (h : CoordRun C bookingTtl nNodesCacheTtl s sent now l) (htime : now ≤ now')
      (hc : C s map now' (.deleteReserveEnter top requestId)) :
      CoordRun C bookingTtl nNodesCacheTtl (s.deleteReserveEnter top requestId) sent now'
        (l.release top requestId)
  | replica {s sent now now' l} {map : CoordinatorMap t} {e : SentReplica V} {decodedAt : ℕ}
      (h : CoordRun C bookingTtl nNodesCacheTtl s sent now l) (htime : now ≤ now')
      (hsent : e ∈ sent) (hway : e.packedAt ≤ decodedAt) (hqueue : decodedAt ≤ now')
      (hc : C s map now' (.applyReplica e.top (gnodeMemoryFromWire e.memory decodedAt))) :
      CoordRun C bookingTtl nNodesCacheTtl
        (s.applyReplica e.top (gnodeMemoryFromWire e.memory decodedAt)) sent now' l
  | aside {s sent now now' l} {map : CoordinatorMap t} {cmd : CoordCmd V}
      (h : CoordRun C bookingTtl nNodesCacheTtl s sent now l) (htime : now ≤ now')
      (hcmd : cmd = .numberOfNodes ∨ cmd = .invalidateNNodes ∨
        ∃ top data, cmd = .setHookingMemory top data)
      (hc : C s map now' cmd) :
      CoordRun C bookingTtl nNodesCacheTtl (s.handle map now' cmd) sent now' l

/-- Two bookings of one place by one request id. -/
def Booking.Same (b c : Booking) : Prop :=
  b.reserveRequestId = c.reserveRequestId ∧ b.newPos = c.newPos ∧ b.newEldership = c.newEldership

/-- A booking and what a replica makes of it: the same place, held at least as long. -/
def Booking.Kept (b c : Booking) : Prop := b.Same c ∧ b.expiresAt ≤ c.expiresAt

instance (b c : Booking) : Decidable (b.Kept c) :=
  inferInstanceAs (Decidable ((_ ∧ _ ∧ _) ∧ _))

/-- The replica tells the servant nothing it has moved on from and ends no booking sooner, and a
request id that holds a booking is not turned away. -/
def Orderly (s : CoordState t V) (map : CoordinatorMap t) (now : ℕ) : CoordCmd V → Prop
  | .applyReplica top m => ∃ cur, s.memory.get? top = some cur ∧
      List.Forall₂ Booking.Kept (cur.live now) (m.live now) ∧
      m.maxVirtualPos = cur.maxVirtualPos ∧ m.maxEldership = cur.maxEldership
  | .reserveEnter top requestId => ∀ cur, s.memory.get? top = some cur →
      requestId ∈ (cur.live now).map Booking.reserveRequestId → map.canReserve (top - 1) = true
  | _ => True

/-- The database at one `top` and what was promised there. -/
structure TopInv (t : Topology) (now : ℕ) (l : Ledger) (top : ℕ) (mem : GnodeMemory V) : Prop where
  promised : ∀ b, (top, b) ∈ l.booked → now < b.expiresAt → ∃ c ∈ mem.live now, b.Kept c
  known : ∀ c ∈ mem.live now, ∃ b, (top, b) ∈ l.booked ∧ b.Same c
  ids : ((mem.live now).map Booking.reserveRequestId).Nodup
  positions : ((mem.live now).map Booking.newPos).Nodup
  booked_le : ∀ b ∈ mem.live now, b.newPos ≤ mem.maxVirtualPos
  gsize_le : ∀ g ∈ t.gsize (top - 1), g.toNat ≤ mem.maxVirtualPos
  eldership_le : ∀ g ∈ l.granted, g.top = top → g.reservation.newEldership ≤ mem.maxEldership

lemma GnodeMemory.mem_live {m : GnodeMemory V} {now : ℕ} {b : Booking} :
    b ∈ m.live now ↔ b ∈ m.reserveList ∧ now < b.expiresAt := by
  simp [live]

/-- With time bookings only drop out. -/
lemma GnodeMemory.live_sublist (m : GnodeMemory V) {now now' : ℕ} (h : now ≤ now') :
    (m.live now').Sublist (m.live now) := by
  refine List.monotone_filter_right _ fun b hb => ?_
  simp only [decide_eq_true_eq] at hb ⊢
  omega

/-- With distinct ids, renewing the first booking of an id is renewing all of them. -/
lemma renewFirst_eq_map {requestId : Int64} {expiresAt : ℕ} {l : List Booking}
    (h : (l.map Booking.reserveRequestId).Nodup) :
    renewFirst requestId expiresAt l = l.map fun b =>
      if b.reserveRequestId = requestId then { b with expiresAt := expiresAt } else b := by
  induction l with
  | nil => rfl
  | cons b l ih =>
      rw [List.map_cons, List.nodup_cons] at h
      rw [renewFirst, List.map_cons]
      split
      · rename_i hb
        -- No other booking has the id, so the rest of the list stays as it is.
        have hrest : (l.map fun b =>
            if b.reserveRequestId = requestId then { b with expiresAt := expiresAt } else b) = l := by
          refine List.map_congr_left (g := id) (fun c hc => if_neg fun hcid => h.1 ?_)
            |>.trans (List.map_id l)
          exact List.mem_map.mpr ⟨c, hc, hcid.trans hb.symm⟩
        rw [hrest]
      · rw [ih h.2]

namespace Booking

lemma Kept.trans {b c d : Booking} (h : b.Kept c) (h' : c.Kept d) : b.Kept d :=
  ⟨⟨h.1.1.trans h'.1.1, h.1.2.1.trans h'.1.2.1, h.1.2.2.trans h'.1.2.2⟩, h.2.trans h'.2⟩

lemma Same.trans {b c d : Booking} (h : b.Same c) (h' : c.Same d) : b.Same d :=
  ⟨h.1.trans h'.1, h.2.1.trans h'.2.1, h.2.2.trans h'.2.2⟩

lemma Kept.refl (b : Booking) : b.Kept b := ⟨⟨rfl, rfl, rfl⟩, le_refl _⟩

lemma forall₂_kept (l : List Booking) : List.Forall₂ Kept l l :=
  List.forall₂_same.mpr fun b _ => Kept.refl b

/-- What is the same of kept bookings is the same along the list. -/
lemma map_of_kept {α : Type} {f : Booking → α} (hf : ∀ b c : Booking, b.Same c → f b = f c)
    {l l' : List Booking} (h : List.Forall₂ Kept l l') : l.map f = l'.map f := by
  refine List.forall₂_eq_eq_eq ▸ List.forall₂_map_left_iff.mpr (List.forall₂_map_right_iff.mpr ?_)
  exact h.imp fun b c hbc => hf b c hbc.1

end Booking

namespace TopInv

variable {now now' top : ℕ} {l : Ledger} {mem : GnodeMemory V}

/-- Time passes. -/
lemma later (h : TopInv t now l top mem) (htime : now ≤ now') : TopInv t now' l top mem where
  promised b hb hlive := by
    obtain ⟨c, hc, hkept⟩ := h.promised b hb (lt_of_le_of_lt htime hlive)
    have hc' := (GnodeMemory.mem_live.mp hc).1
    exact ⟨c, GnodeMemory.mem_live.mpr ⟨hc', lt_of_lt_of_le hlive hkept.2⟩, hkept⟩
  known c hc := h.known c ((mem.live_sublist htime).subset hc)
  ids := h.ids.sublist ((mem.live_sublist htime).map _)
  positions := h.positions.sublist ((mem.live_sublist htime).map _)
  booked_le b hb := h.booked_le b ((mem.live_sublist htime).subset hb)
  gsize_le := h.gsize_le
  eldership_le := h.eldership_le

/-- The record is replaced by one with the same unexpired bookings, none cut short. -/
lemma kept (h : TopInv t now l top mem) {mem' : GnodeMemory V}
    (hlive : List.Forall₂ Booking.Kept (mem.live now) (mem'.live now))
    (hv : mem'.maxVirtualPos = mem.maxVirtualPos) (he : mem'.maxEldership = mem.maxEldership) :
    TopInv t now l top mem' where
  promised b hb hbl := by
    obtain ⟨c, hc, hbc⟩ := h.promised b hb hbl
    obtain ⟨i, hi, rfl⟩ := List.getElem_of_mem hc
    have hi' : i < (mem'.live now).length := hlive.length_eq ▸ hi
    exact ⟨_, List.getElem_mem hi', hbc.trans (hlive.get hi hi')⟩
  known d hd := by
    obtain ⟨i, hi, rfl⟩ := List.getElem_of_mem hd
    have hi' : i < (mem.live now).length := hlive.length_eq ▸ hi
    obtain ⟨b, hb, hsame⟩ := h.known _ (List.getElem_mem hi')
    exact ⟨b, hb, hsame.trans (hlive.get hi' hi).1⟩
  ids := by
    rw [← Booking.map_of_kept (fun _ _ hs => hs.1) hlive]
    exact h.ids
  positions := by
    rw [← Booking.map_of_kept (fun _ _ hs => hs.2.1) hlive]
    exact h.positions
  booked_le d hd := by
    have hmem : d.newPos ∈ (mem'.live now).map Booking.newPos := List.mem_map_of_mem hd
    rw [← Booking.map_of_kept (fun _ _ hs => hs.2.1) hlive] at hmem
    obtain ⟨c, hc, hcd⟩ := List.mem_map.mp hmem
    rw [hv, ← hcd]
    exact h.booked_le c hc
  gsize_le := by rw [hv]; exact h.gsize_le
  eldership_le := by rw [he]; exact h.eldership_le

/-- The ledger moves on at another `top`. -/
lemma of_other (h : TopInv t now l top mem) {l' : Ledger}
    (hbooked : ∀ b, (top, b) ∈ l'.booked ↔ (top, b) ∈ l.booked)
    (hgranted : ∀ g ∈ l'.granted, g.top = top → g ∈ l.granted) : TopInv t now l' top mem where
  promised b hb := h.promised b ((hbooked b).mp hb)
  known c hc := by
    obtain ⟨b, hb, hsame⟩ := h.known c hc
    exact ⟨b, (hbooked b).mpr hb, hsame⟩
  ids := h.ids
  positions := h.positions
  booked_le := h.booked_le
  gsize_le := h.gsize_le
  eldership_le g hg hgt := h.eldership_le g (hgranted g hg hgt) hgt

/-- The record and the ledger are both rewritten at `top`: what has to be shown of the new list
of bookings. -/
lemma of_list {l' : Ledger} {mem' : GnodeMemory V}
    (promised : ∀ b, (top, b) ∈ l'.booked → now < b.expiresAt →
      ∃ c ∈ mem'.reserveList, b.Kept c)
    (known : ∀ c ∈ mem'.reserveList, ∃ b, (top, b) ∈ l'.booked ∧ b.Same c)
    (ids : (mem'.reserveList.map Booking.reserveRequestId).Nodup)
    (positions : (mem'.reserveList.map Booking.newPos).Nodup)
    (booked_le : ∀ b ∈ mem'.reserveList, b.newPos ≤ mem'.maxVirtualPos)
    (gsize_le : ∀ g ∈ t.gsize (top - 1), g.toNat ≤ mem'.maxVirtualPos)
    (eldership_le : ∀ g ∈ l'.granted, g.top = top →
      g.reservation.newEldership ≤ mem'.maxEldership) : TopInv t now l' top mem' where
  promised b hb hlive := by
    obtain ⟨c, hc, hkept⟩ := promised b hb hlive
    exact ⟨c, GnodeMemory.mem_live.mpr ⟨hc, lt_of_lt_of_le hlive hkept.2⟩, hkept⟩
  known c hc := known c (GnodeMemory.mem_live.mp hc).1
  ids := ids.sublist (List.filter_sublist.map _)
  positions := positions.sublist (List.filter_sublist.map _)
  booked_le b hb := booked_le b (GnodeMemory.mem_live.mp hb).1
  gsize_le := gsize_le
  eldership_le := eldership_le

/-- The client of a live booking knows its place, so telling it again is no grant. -/
lemma granted_of_known (h : TopInv t now l top mem) {requestId : Int64} {b : Booking}
    (hb : b ∈ mem.live now) (hid : b.reserveRequestId = requestId) {free : List ℕ} {ttl : ℕ} :
    (l.record free now ttl top requestId ⟨b.newPos, b.newEldership⟩).granted = l.granted := by
  obtain ⟨c, hc, hsame⟩ := h.known b hb
  have hknows := Ledger.knows_of_mem hc
  rw [hsame.1, hsame.2.1, hsame.2.2, hid] at hknows
  rw [Ledger.record, if_pos hknows]

/-- What renewing a booking does not touch is the same along the list. -/
lemma map_renewed {α : Type} {f : Booking → α}
    (hf : ∀ (b : Booking) (e : ℕ), f { b with expiresAt := e } = f b) (requestId : Int64)
    (expiresAt : ℕ) (bookings : List Booking) :
    (bookings.map fun b =>
      if b.reserveRequestId = requestId then { b with expiresAt := expiresAt } else b).map f =
      bookings.map f := by
  rw [List.map_map]
  refine List.map_congr_left fun b _ => ?_
  show f (if b.reserveRequestId = requestId then { b with expiresAt := expiresAt } else b) = f b
  split
  · exact hf b expiresAt
  · rfl

/-- A booking is renewed. -/
lemma renew (h : TopInv t now l top mem) {requestId : Int64} {b : Booking}
    (hfind : (mem.live now).find? (fun b => decide (b.reserveRequestId = requestId)) = some b)
    (free : List ℕ) (ttl : ℕ) :
    TopInv t now (l.record free now ttl top requestId ⟨b.newPos, b.newEldership⟩) top
      { mem with reserveList := renewFirst requestId (now + ttl) (mem.live now) } := by
  have hb : b ∈ mem.live now := List.mem_of_find?_eq_some hfind
  have hid : b.reserveRequestId = requestId := by simpa using List.find?_some hfind
  have hunique : ∀ c ∈ mem.live now, c.reserveRequestId = requestId → c = b := fun c hc hcid =>
    List.inj_on_of_nodup_map h.ids hc hb (hcid.trans hid.symm)
  rw [renewFirst_eq_map h.ids]
  refine of_list ?_ ?_ ?_ ?_ ?_ h.gsize_le ?_
  · intro d hd hlive
    rcases Ledger.mem_record.mp hd with hd | ⟨-, rfl⟩
    · -- Another id: its booking stays as it is.
      obtain ⟨hd, hdid⟩ := Ledger.mem_release.mp hd
      obtain ⟨c, hc, hdc⟩ := h.promised d hd hlive
      have hcid : c.reserveRequestId ≠ requestId := fun hcid =>
        hdid ⟨rfl, hdc.1.1.trans hcid⟩
      exact ⟨c, List.mem_map.mpr ⟨c, hc, if_neg hcid⟩, hdc⟩
    · exact ⟨_, List.mem_map.mpr ⟨b, hb, if_pos hid⟩, ⟨hid.symm, rfl, rfl⟩, le_refl _⟩
  · intro d hd
    obtain ⟨c, hc, rfl⟩ := List.mem_map.mp hd
    by_cases hcid : c.reserveRequestId = requestId
    · rw [if_pos hcid, hunique c hc hcid]
      exact ⟨_, Ledger.mem_record.mpr (Or.inr ⟨rfl, rfl⟩), hid.symm, rfl, rfl⟩
    · rw [if_neg hcid]
      obtain ⟨e, he, hsame⟩ := h.known c hc
      refine ⟨e, Ledger.mem_record.mpr (Or.inl (Ledger.mem_release.mpr ⟨he, ?_⟩)), hsame⟩
      exact fun heid => hcid (hsame.1.symm.trans heid.2)
  · rw [map_renewed fun _ _ => rfl]
    exact h.ids
  · rw [map_renewed fun _ _ => rfl]
    exact h.positions
  · intro d hd
    obtain ⟨c, hc, rfl⟩ := List.mem_map.mp hd
    split
    · exact h.booked_le c hc
    · exact h.booked_le c hc
  · rw [h.granted_of_known hb hid]
    exact h.eldership_le

/-- A new booking is made, at a position no live booking has. -/
lemma grant (h : TopInv t now l top mem) {requestId : Int64} {r : Reservation} {maxVirtualPos : ℕ}
    (hnew : ∀ b ∈ mem.live now, b.reserveRequestId ≠ requestId)
    (hpos : r.newPos ∉ (mem.live now).map Booking.newPos) (hle : r.newPos ≤ maxVirtualPos)
    (hmax : mem.maxVirtualPos ≤ maxVirtualPos) (held : mem.maxEldership < r.newEldership)
    (free : List ℕ) (ttl : ℕ) :
    TopInv t now (l.record free now ttl top requestId r) top
      { mem with
        reserveList := mem.live now ++ [⟨requestId, r.newPos, r.newEldership, now + ttl⟩]
        maxVirtualPos := maxVirtualPos
        maxEldership := r.newEldership } := by
  refine of_list ?_ ?_ ?_ ?_ ?_ ?_ ?_
  · intro d hd hlive
    rcases Ledger.mem_record.mp hd with hd | ⟨-, rfl⟩
    · obtain ⟨c, hc, hdc⟩ := h.promised d (Ledger.mem_release.mp hd).1 hlive
      exact ⟨c, List.mem_append_left _ hc, hdc⟩
    · exact ⟨_, List.mem_append_right _ (List.mem_singleton_self _), Booking.Kept.refl _⟩
  · intro c hc
    rcases List.mem_append.mp hc with hc | hc
    · obtain ⟨e, he, hsame⟩ := h.known c hc
      refine ⟨e, Ledger.mem_record.mpr (Or.inl (Ledger.mem_release.mpr ⟨he, ?_⟩)), hsame⟩
      exact fun heid => hnew c hc (hsame.1.symm.trans heid.2)
    · rw [List.mem_singleton.mp hc]
      exact ⟨_, Ledger.mem_record.mpr (Or.inr ⟨rfl, rfl⟩), rfl, rfl, rfl⟩
  · rw [List.map_append, List.nodup_append]
    refine ⟨h.ids, List.nodup_singleton _, ?_⟩
    intro i hi j hj
    obtain ⟨c, hc, rfl⟩ := List.mem_map.mp hi
    rw [List.mem_singleton.mp hj]
    exact hnew c hc
  · rw [List.map_append, List.nodup_append]
    refine ⟨h.positions, List.nodup_singleton _, ?_⟩
    intro i hi j hj
    rw [List.mem_singleton.mp hj]
    rintro rfl
    exact hpos hi
  · intro c hc
    rcases List.mem_append.mp hc with hc | hc
    · exact (h.booked_le c hc).trans hmax
    · rw [List.mem_singleton.mp hc]
      exact hle
  · exact fun g hg => (h.gsize_le g hg).trans hmax
  · intro g hg hgt
    rcases Ledger.mem_granted hg with hg | rfl
    · exact (h.eldership_le g hg hgt).trans held.le
    · exact le_refl _

/-- A booking is given back. -/
lemma release (h : TopInv t now l top mem) (requestId : Int64) :
    TopInv t now (l.release top requestId) top
      { mem with reserveList := mem.reserveList.filter fun b => b.reserveRequestId ≠ requestId } where
  promised b hb hlive := by
    obtain ⟨hb, hid⟩ := Ledger.mem_release.mp hb
    obtain ⟨c, hc, hbc⟩ := h.promised b hb hlive
    obtain ⟨hc, hcl⟩ := GnodeMemory.mem_live.mp hc
    refine ⟨c, GnodeMemory.mem_live.mpr ⟨List.mem_filter.mpr ⟨hc, ?_⟩, hcl⟩, hbc⟩
    exact decide_eq_true fun hcid => hid ⟨rfl, hbc.1.1.trans hcid⟩
  known c hc := by
    obtain ⟨hc, hcl⟩ := GnodeMemory.mem_live.mp hc
    obtain ⟨hc, hcid⟩ := List.mem_filter.mp hc
    obtain ⟨b, hb, hsame⟩ := h.known c (GnodeMemory.mem_live.mpr ⟨hc, hcl⟩)
    refine ⟨b, Ledger.mem_release.mpr ⟨hb, fun hbid => ?_⟩, hsame⟩
    exact of_decide_eq_true hcid (hsame.1.symm.trans hbid.2)
  ids := h.ids.sublist ((List.filter_sublist.filter _).map _)
  positions := h.positions.sublist ((List.filter_sublist.filter _).map _)
  booked_le b hb := h.booked_le b ((List.filter_sublist.filter _).subset hb)
  gsize_le := h.gsize_le
  eldership_le := h.eldership_le

end TopInv

namespace CoordState

@[simp] lemma get?_store_self (s : CoordState t V) (top : ℕ) (mem : GnodeMemory V) :
    (s.store top mem).memory.get? top = some mem := by
  simp [store, publishSnapshot, KeyedMap.get?_insertOrdered]

lemma get?_store_of_ne (s : CoordState t V) {top top' : ℕ} (mem : GnodeMemory V)
    (hne : top' ≠ top) : (s.store top mem).memory.get? top' = s.memory.get? top' := by
  simp [store, publishSnapshot, KeyedMap.get?_insertOrdered, KeyedMap.get?_insert_of_ne _ _ hne]

/-- What `choosePos` gives: a free position nobody booked, or the next virtual one. -/
lemma choosePos_eq_ok {free taken : List ℕ} {maxVirtualPos p m : ℕ}
    (h : choosePos free taken maxVirtualPos = .ok (p, m)) :
    (p ∈ free ∧ p ∉ taken ∧ m = maxVirtualPos) ∨ (p = maxVirtualPos + 1 ∧ m = maxVirtualPos + 1) := by
  rw [choosePos] at h
  split at h
  · rename_i q hfind
    cases h
    exact Or.inl ⟨List.mem_of_find?_eq_some hfind, by simpa using List.find?_some hfind, rfl⟩
  · obtain ⟨next, hnext, h⟩ := Outcome.bind_eq_ok.mp h
    cases h
    simp only [Outcome.checkedAdd] at hnext
    split at hnext
    · cases hnext
      exact Or.inr ⟨rfl, rfl⟩
    · cases hnext

/-- A refused or failed reservation leaves the database alone. -/
lemma reserveEnter_of_error {s s' : CoordState t V} {map : CoordinatorMap t} {now top : ℕ}
    {requestId : Int64} {e : Fault ReserveError}
    (h : s.reserveEnter map now top requestId = (s', .error e)) : s' = s := by
  simp only [reserveEnter] at h
  split at h
  · exact (Prod.mk.inj h).1.symm
  split at h
  · exact (Prod.mk.inj h).1.symm
  split at h
  · exact (Prod.mk.inj h).1.symm
  split at h
  · cases (Prod.mk.inj h).2
  split at h
  · exact (Prod.mk.inj h).1.symm
  · cases (Prod.mk.inj h).2

/-- What a reservation that was answered did: it renewed the booking of the id, or, there being
none, made one. -/
structure Answered (s : CoordState t V) (map : CoordinatorMap t) (now top : ℕ) (requestId : Int64)
    (s' : CoordState t V) (r : Reservation) (mem : GnodeMemory V) : Prop where
  inRange : 1 ≤ top ∧ top ≤ t.levels
  current : s.memory.get? top = some mem
  effect :
    (∃ b, (mem.live now).find? (fun b => decide (b.reserveRequestId = requestId)) = some b ∧
        r = ⟨b.newPos, b.newEldership⟩ ∧
        s' = s.store top
          { mem with reserveList := renewFirst requestId (now + s.bookingTtl) (mem.live now) }) ∨
      ((∀ b ∈ mem.live now, b.reserveRequestId ≠ requestId) ∧
        r.newEldership = mem.maxEldership + 1 ∧
        ∃ maxVirtualPos,
          ((r.newPos ∈ map.freePositions (top - 1) ∧
              r.newPos ∉ (mem.live now).map Booking.newPos ∧ maxVirtualPos = mem.maxVirtualPos) ∨
            (r.newPos = mem.maxVirtualPos + 1 ∧ maxVirtualPos = mem.maxVirtualPos + 1)) ∧
          s' = s.store top
            { mem with
              reserveList := mem.live now ++
                [⟨requestId, r.newPos, r.newEldership, now + s.bookingTtl⟩]
              maxVirtualPos := maxVirtualPos
              maxEldership := r.newEldership })

theorem reserveEnter_eq_ok {s s' : CoordState t V} {map : CoordinatorMap t} {now top : ℕ}
    {requestId : Int64} {r : Reservation}
    (h : s.reserveEnter map now top requestId = (s', .ok r)) :
    ∃ mem, Answered s map now top requestId s' r mem := by
  simp only [reserveEnter] at h
  split at h
  · cases (Prod.mk.inj h).2
  rename_i hrange
  split at h
  · cases (Prod.mk.inj h).2
  split at h
  · cases (Prod.mk.inj h).2
  rename_i mem hmem
  refine ⟨mem, by omega, hmem, ?_⟩
  split at h
  · rename_i b hfind
    cases h
    exact Or.inl ⟨b, hfind, rfl, rfl⟩
  rename_i hfind
  split at h
  · cases (Prod.mk.inj h).2
  rename_i mem' r' hgrant
  cases h
  obtain ⟨⟨p, m⟩, hp, hgrant⟩ := Outcome.bind_eq_ok.mp hgrant
  obtain ⟨e, he, hgrant⟩ := Outcome.bind_eq_ok.mp hgrant
  simp only [Outcome.checkedAdd] at he
  split at he
  · cases he
    cases hgrant
    exact Or.inr ⟨by simpa using hfind, rfl, m, choosePos_eq_ok hp, rfl⟩
  · cases he

end CoordState

/-- The invariant of a servant and its clients. -/
structure CoordInv (ttl : ℕ) (s : CoordState t V) (now : ℕ) (l : Ledger) : Prop where
  bookingTtl : s.bookingTtl = ttl
  tops : ∀ top, 1 ≤ top → top ≤ t.levels →
    ∃ mem, s.memory.get? top = some mem ∧ TopInv t now l top mem
  ledger : ∀ top b, (top, b) ∈ l.booked → 1 ≤ top ∧ top ≤ t.levels
  elderships : l.granted.Pairwise fun g g' => g.top = g'.top →
    g.reservation.newEldership < g'.reservation.newEldership
  places : ∀ g ∈ l.granted, g.reservation.newPos ∈ g.free ∨
    ∃ size, t.gsize (g.top - 1) = some size ∧ size.toNat ≤ g.reservation.newPos

namespace CoordInv

variable {ttl now now' : ℕ} {s : CoordState t V} {l : Ledger}

/-- A fresh servant promised nothing. -/
lemma start (ttl cacheTtl now : ℕ) :
    CoordInv ttl (.new ttl cacheTtl KeyedMap.empty : CoordState t V) now .blank where
  bookingTtl := rfl
  tops := by
    intro top h1 h2
    obtain ⟨g, hg⟩ := Topology.exists_gsize (show top - 1 < t.levels by omega)
    refine ⟨GnodeMemory.fresh g.toNat, ?_, ?_⟩
    · rw [← KeyedMap.mem_entries_iff]
      simp only [CoordState.new, List.mem_map, KeyedMap.get?_empty, Option.getD_none,
        Prod.mk.injEq]
      refine ⟨(g, top - 1), ?_, by omega, rfl⟩
      rw [List.mem_zipIdx_iff_getElem?]
      exact hg
    · refine TopInv.of_list ?_ ?_ List.nodup_nil List.nodup_nil ?_ ?_ ?_
      · simp [Ledger.blank]
      · simp [GnodeMemory.fresh]
      · simp [GnodeMemory.fresh]
      · intro g' hg'
        rw [hg] at hg'
        cases hg'
        exact le_refl _
      · simp [Ledger.blank]
  ledger := by simp [Ledger.blank]
  elderships := List.Pairwise.nil
  places := by simp [Ledger.blank]

/-- A step that leaves the ledger alone, and the counters and the unexpired bookings of every
record too. -/
lemma of_same (h : CoordInv ttl s now l) (htime : now ≤ now') {s' : CoordState t V}
    (httl : s'.bookingTtl = s.bookingTtl)
    (htops : ∀ top mem, s.memory.get? top = some mem → ∃ mem', s'.memory.get? top = some mem' ∧
      List.Forall₂ Booking.Kept (mem.live now') (mem'.live now') ∧
      mem'.maxVirtualPos = mem.maxVirtualPos ∧ mem'.maxEldership = mem.maxEldership) :
    CoordInv ttl s' now' l where
  bookingTtl := httl.trans h.bookingTtl
  tops top h1 h2 := by
    obtain ⟨mem, hmem, hinv⟩ := h.tops top h1 h2
    obtain ⟨mem', hmem', hlive, hv, he⟩ := htops top mem hmem
    exact ⟨mem', hmem', (hinv.later htime).kept hlive hv he⟩
  ledger := h.ledger
  elderships := h.elderships
  places := h.places

/-- Nothing happens but that time passes. -/
lemma later (h : CoordInv ttl s now l) (htime : now ≤ now') : CoordInv ttl s now' l :=
  h.of_same htime rfl fun _ mem hmem => ⟨mem, hmem, Booking.forall₂_kept _, rfl, rfl⟩

/-- One record is rewritten with its counters and its unexpired bookings kept. -/
lemma of_store (h : CoordInv ttl s now l) (htime : now ≤ now') {top : ℕ}
    {mem mem' : GnodeMemory V} (hmem : s.memory.get? top = some mem)
    (hlive : List.Forall₂ Booking.Kept (mem.live now') (mem'.live now'))
    (hv : mem'.maxVirtualPos = mem.maxVirtualPos) (he : mem'.maxEldership = mem.maxEldership) :
    CoordInv ttl (s.store top mem') now' l := by
  refine h.of_same htime rfl fun top' cur hcur => ?_
  by_cases htop : top' = top
  · subst htop
    rw [hmem] at hcur
    cases hcur
    exact ⟨mem', by simp, hlive, hv, he⟩
  · exact ⟨cur, by rw [CoordState.get?_store_of_ne _ _ htop, hcur], Booking.forall₂_kept _, rfl, rfl⟩

/-- One record is rewritten together with the ledger at its `top`. -/
lemma of_top (h : CoordInv ttl s now l) (htime : now ≤ now') {top : ℕ} {mem' : GnodeMemory V}
    {l' : Ledger} (hrange : 1 ≤ top ∧ top ≤ t.levels) (hinv : TopInv t now' l' top mem')
    (hbooked : ∀ top', top' ≠ top → ∀ b, (top', b) ∈ l'.booked ↔ (top', b) ∈ l.booked)
    (hgranted : ∀ g ∈ l'.granted, g.top ≠ top → g ∈ l.granted)
    (elderships : l'.granted.Pairwise fun g g' => g.top = g'.top →
      g.reservation.newEldership < g'.reservation.newEldership)
    (places : ∀ g ∈ l'.granted, g.reservation.newPos ∈ g.free ∨
      ∃ size, t.gsize (g.top - 1) = some size ∧ size.toNat ≤ g.reservation.newPos) :
    CoordInv ttl (s.store top mem') now' l' where
  bookingTtl := h.bookingTtl
  tops top' h1 h2 := by
    by_cases htop : top' = top
    · subst htop
      exact ⟨mem', by simp, hinv⟩
    · obtain ⟨cur, hcur, hcinv⟩ := h.tops top' h1 h2
      refine ⟨cur, by rw [CoordState.get?_store_of_ne _ _ htop, hcur], ?_⟩
      exact (hcinv.later htime).of_other (hbooked top' htop) fun g hg hgt =>
        hgranted g hg (hgt ▸ htop)
  ledger top' b hb := by
    by_cases htop : top' = top
    · exact htop ▸ hrange
    · exact h.ledger top' b ((hbooked top' htop b).mp hb)
  elderships := elderships
  places := places

/-- An answered reservation keeps the invariant. -/
lemma reserve (h : CoordInv ttl s now l) (htime : now ≤ now') {map : CoordinatorMap t} {top : ℕ}
    {requestId : Int64} {s' : CoordState t V} {r : Reservation}
    (hcall : s.reserveEnter map now' top requestId = (s', .ok r)) :
    CoordInv ttl s' now' (l.record (map.freePositions (top - 1)) now' ttl top requestId r) := by
  obtain ⟨mem, hans⟩ := CoordState.reserveEnter_eq_ok hcall
  obtain ⟨cur, hcur, hinv⟩ := h.tops top hans.inRange.1 hans.inRange.2
  rw [hans.current] at hcur
  cases hcur
  have hinv := hinv.later htime
  have hother : ∀ top', top' ≠ top → ∀ b, (top', b) ∈
      (l.record (map.freePositions (top - 1)) now' ttl top requestId r).booked ↔
        (top', b) ∈ l.booked := fun top' hne b => Ledger.mem_record_of_ne hne
  rcases hans.effect with ⟨b, hfind, rfl, rfl⟩ | ⟨hnew, held, m, hpos, rfl⟩
  · -- The id has its booking, and the client knows it, so nothing is granted.
    have hgranted : (l.record (map.freePositions (top - 1)) now' ttl top requestId
        ⟨b.newPos, b.newEldership⟩).granted = l.granted :=
      hinv.granted_of_known (List.mem_of_find?_eq_some hfind) (by simpa using List.find?_some hfind)
    rw [h.bookingTtl]
    refine h.of_top htime hans.inRange (hinv.renew hfind _ ttl) hother ?_ ?_ ?_
    · exact hgranted ▸ fun g hg _ => hg
    · exact hgranted ▸ h.elderships
    · exact hgranted ▸ h.places
  · have hlevel : top - 1 < t.levels := by
      have := hans.inRange
      omega
    obtain ⟨size, hsize⟩ := Topology.exists_gsize hlevel
    have hsize' := hinv.gsize_le size hsize
    have hfresh : r.newPos ∉ (mem.live now').map Booking.newPos := by
      rcases hpos with ⟨-, hnot, -⟩ | ⟨hp, -⟩
      · exact hnot
      · rw [hp]
        intro hmem
        obtain ⟨b, hbm, hbp⟩ := List.mem_map.mp hmem
        have := hinv.booked_le b hbm
        omega
    have hle : r.newPos ≤ m ∧ mem.maxVirtualPos ≤ m := by
      rcases hpos with ⟨hfree, -, rfl⟩ | ⟨hp, rfl⟩
      · have := map.free_real _ _ hfree size hsize
        omega
      · omega
    rw [h.bookingTtl]
    refine h.of_top htime hans.inRange
      (hinv.grant hnew hfresh hle.1 hle.2 (by omega) _ ttl) hother ?_ ?_ ?_
    · intro g hg hgt
      rcases Ledger.mem_granted hg with hg | rfl
      · exact hg
      · exact absurd rfl hgt
    · exact Ledger.pairwise_record h.elderships fun g hg htop => by
        have := hinv.eldership_le g hg htop
        show g.reservation.newEldership < r.newEldership
        omega
    · intro g hg
      rcases Ledger.mem_granted hg with hg | rfl
      · exact h.places g hg
      · rcases hpos with ⟨hfree, -, -⟩ | ⟨hp, -⟩
        · exact Or.inl hfree
        · refine Or.inr ⟨size, hsize, ?_⟩
          show size.toNat ≤ r.newPos
          omega

/-- A deletion keeps the invariant. -/
lemma delete (h : CoordInv ttl s now l) (htime : now ≤ now') (top : ℕ) (requestId : Int64) :
    CoordInv ttl (s.deleteReserveEnter top requestId) now' (l.release top requestId) := by
  have hother : ∀ top', top' ≠ top → ∀ b,
      (top', b) ∈ (l.release top requestId).booked ↔ (top', b) ∈ l.booked := by
    intro top' hne b
    rw [Ledger.mem_release]
    simp [hne]
  by_cases hrange : 1 ≤ top ∧ top ≤ t.levels
  · obtain ⟨mem, hmem, hinv⟩ := h.tops top hrange.1 hrange.2
    rw [CoordState.deleteReserveEnter, hmem]
    exact h.of_top htime hrange ((hinv.later htime).release requestId) hother
      (fun g hg _ => hg) h.elderships h.places
  · -- Nothing was ever promised outside the levels, and no record is read there.
    refine
      { bookingTtl := ?_
        tops := fun top' h1 h2 => ?_
        ledger := fun top' b hb => h.ledger top' b (Ledger.mem_release.mp hb).1
        elderships := h.elderships
        places := h.places }
    · rw [CoordState.deleteReserveEnter]
      split
      · exact h.bookingTtl
      · exact h.bookingTtl
    · have hne : top' ≠ top := by
        rintro rfl
        exact hrange ⟨h1, h2⟩
      obtain ⟨mem, hmem, hinv⟩ := h.tops top' h1 h2
      refine ⟨mem, ?_, (hinv.later htime).of_other (hother top' hne) fun g hg _ => hg⟩
      rw [CoordState.deleteReserveEnter]
      split
      · rw [CoordState.get?_store_of_ne _ _ hne, hmem]
      · exact hmem

/-- The commands that do not concern the bookings. -/
lemma aside (h : CoordInv ttl s now l) (htime : now ≤ now') {map : CoordinatorMap t}
    {cmd : CoordCmd V} (hcmd : cmd = .numberOfNodes ∨ cmd = .invalidateNNodes ∨
      ∃ top data, cmd = .setHookingMemory top data) :
    CoordInv ttl (s.handle map now' cmd) now' l := by
  rcases hcmd with rfl | rfl | ⟨top, data, rfl⟩
  · simp only [CoordState.handle, CoordState.numberOfNodes]
    split
    · split
      · exact h.later htime
      · rename_i mem hmem _
        exact h.of_store htime hmem (Booking.forall₂_kept _) rfl rfl
    · exact h.later htime
  · simp only [CoordState.handle, CoordState.invalidateNNodes]
    split
    · rename_i mem hmem
      exact h.of_store htime hmem (Booking.forall₂_kept _) rfl rfl
    · exact h.of_same htime rfl fun _ mem hmem => ⟨mem, hmem, Booking.forall₂_kept _, rfl, rfl⟩
  · simp only [CoordState.handle, CoordState.setHookingMemory]
    split
    · rename_i mem hmem
      exact h.of_store htime hmem (Booking.forall₂_kept _) rfl rfl
    · exact h.of_same htime rfl fun _ mem hmem => ⟨mem, hmem, Booking.forall₂_kept _, rfl, rfl⟩

end CoordInv

/-- Orderly runs keep the invariant. -/
theorem CoordRun.inv {ttl cacheTtl : ℕ} {s : CoordState t V} {sent : List (SentReplica V)}
    {now : ℕ} {l : Ledger} (h : CoordRun Orderly ttl cacheTtl s sent now l) :
    CoordInv ttl s now l := by
  induction h with
  | start now => exact CoordInv.start ttl cacheTtl now
  | snapshot h htime hm ih => exact ih
  | reserved h htime hc hcall ih => exact ih.reserve htime hcall
  | refused h htime hc hcall ih =>
      rw [CoordState.reserveEnter_of_error hcall]
      exact ih.later htime
  | deleted h htime hc ih => exact ih.delete htime _ _
  | replica h htime hsent hway hqueue hc ih =>
      obtain ⟨cur, hcur, hlive, hv, he⟩ := hc
      exact ih.of_store htime hcur hlive hv he
  | aside h htime hcmd hc ih => exact ih.aside htime hcmd

/-- The unexpired bookings of a record that comes back as it is, after a millisecond or more. -/
lemma forall₂_transported {packedAt decodedAt now : ℕ} (hway : packedAt + msec ≤ decodedAt)
    (hqueue : decodedAt ≤ now) {bookings : List Booking}
    (httl : ∀ b ∈ bookings, b.expiresAt ≤ packedAt + msec * maxReplicaTtlMs)
    (hstill : ∀ b ∈ bookings, packedAt < b.expiresAt → now < b.expiresAt) :
    List.Forall₂ Booking.Kept (bookings.filter fun b => decide (now < b.expiresAt))
      ((bookings.map fun b => b.transported packedAt decodedAt).filter
        fun b => decide (now < b.expiresAt)) := by
  induction bookings with
  | nil => exact List.Forall₂.nil
  | cons b l ih =>
      have hrest := ih (fun c hc => httl c (List.mem_cons_of_mem _ hc))
        fun c hc => hstill c (List.mem_cons_of_mem _ hc)
      have hle := Booking.le_transported (httl b List.mem_cons_self) hway
      rw [List.map_cons]
      by_cases hb : now < b.expiresAt
      · rw [List.filter_cons_of_pos (by simpa using hb),
          List.filter_cons_of_pos (by simpa using lt_of_lt_of_le hb hle)]
        exact hrest.cons ⟨⟨rfl, rfl, rfl⟩, hle⟩
      · -- It had run out when it was packed, so it has nothing left on arrival.
        have hout : b.expiresAt ≤ packedAt := by
          by_contra hin
          exact hb (hstill b List.mem_cons_self (by omega))
        have hzero : (b.transported packedAt decodedAt).expiresAt = decodedAt :=
          Booking.transported_expired hout
        rw [List.filter_cons_of_neg (by simpa using hb),
          List.filter_cons_of_neg (by simpa [hzero] using hqueue)]
        exact hrest

/-- A record that has not changed since it was packed, and in which no booking has run out since,
comes back in order if it was a millisecond or more on its way. -/
theorem orderly_of_unchanged {s : CoordState t V} {map : CoordinatorMap t} {top : ℕ}
    {cur : GnodeMemory V} {packedAt decodedAt now : ℕ} (hcur : s.memory.get? top = some cur)
    (hway : packedAt + msec ≤ decodedAt) (hqueue : decodedAt ≤ now)
    (hlen : cur.reserveList.length ≤ maxReplicaBookings)
    (hvirtual : cur.maxVirtualPos ≤ maxReplicaVirtualPos)
    (httl : ∀ b ∈ cur.reserveList, b.expiresAt ≤ packedAt + msec * maxReplicaTtlMs)
    (hstill : ∀ b ∈ cur.reserveList, packedAt < b.expiresAt → now < b.expiresAt) :
    Orderly s map now
      (.applyReplica top (gnodeMemoryFromWire (gnodeMemoryToWire cur packedAt) decodedAt)) := by
  refine ⟨cur, hcur, ?_, min_eq_left hvirtual, rfl⟩
  rw [GnodeMemory.live, GnodeMemory.live, gnodeMemoryFromWire_toWire,
    List.take_of_length_le hlen]
  exact forall₂_transported hway hqueue httl hstill

/-- A request id that holds a booking gets it again. -/
lemma CoordInv.again {ttl now now' : ℕ} {s : CoordState t V} {l : Ledger}
    (h : CoordInv ttl s now l) (htime : now ≤ now') {map : CoordinatorMap t} {top : ℕ}
    {requestId : Int64} {b : Booking} (hheld : l.Held top requestId now' b)
    (hok : Orderly s map now' (.reserveEnter top requestId)) :
    (s.reserveEnter map now' top requestId).2 = .ok ⟨b.newPos, b.newEldership⟩ := by
  obtain ⟨h1, h2⟩ := h.ledger top b hheld.1
  obtain ⟨mem, hmem, hinv⟩ := h.tops top h1 h2
  have hinv := hinv.later htime
  obtain ⟨c, hc, hbc⟩ := hinv.promised b hheld.1 hheld.2.2
  have hcid : c.reserveRequestId = requestId := hbc.1.1.symm.trans hheld.2.1
  have hcan : map.canReserve (top - 1) = true :=
    hok mem hmem (List.mem_map.mpr ⟨c, hc, hcid⟩)
  have hfind : (mem.live now').find? (fun b => decide (b.reserveRequestId = requestId)) = some c := by
    cases hf : (mem.live now').find? (fun b => decide (b.reserveRequestId = requestId)) with
    | none => exact absurd hcid (by simpa using List.find?_eq_none.mp hf c hc)
    | some d =>
        have hd := List.mem_of_find?_eq_some hf
        have hdid : d.reserveRequestId = requestId := by simpa using List.find?_some hf
        rw [List.inj_on_of_nodup_map hinv.ids hd hc (hdid.trans hcid.symm)]
  rw [CoordState.reserveEnter, if_neg (by omega), if_neg (by simp [hcan]), hmem]
  simp only [hfind, hbc.1.2.1, hbc.1.2.2]

/-- Along every orderly run: two request ids never hold one position, elderships grow from grant
to grant, a request id that holds a booking gets it again, and what is granted was free or is
virtual. -/
theorem reservations_unique {ttl cacheTtl : ℕ} {s : CoordState t V}
    {sent : List (SentReplica V)} {now : ℕ} {l : Ledger}
    (h : CoordRun Orderly ttl cacheTtl s sent now l) :
    (∀ top requestId requestId' b b' now', now ≤ now' → requestId ≠ requestId' →
        l.Held top requestId now' b → l.Held top requestId' now' b' → b.newPos ≠ b'.newPos) ∧
      (l.granted.Pairwise fun g g' => g.top = g'.top →
        g.reservation.newEldership < g'.reservation.newEldership) ∧
      (∀ (map : CoordinatorMap t) now' top requestId b, now ≤ now' →
        l.Held top requestId now' b → Orderly s map now' (.reserveEnter top requestId) →
        (s.reserveEnter map now' top requestId).2 = .ok ⟨b.newPos, b.newEldership⟩) ∧
      ∀ g ∈ l.granted, g.reservation.newPos ∈ g.free ∨
        ∃ size, t.gsize (g.top - 1) = some size ∧ size.toNat ≤ g.reservation.newPos := by
  have hinv := h.inv
  refine ⟨?_, hinv.elderships, fun map now' top requestId b htime => hinv.again htime,
    hinv.places⟩
  intro top requestId requestId' b b' now' htime hne hb hb' hpos
  obtain ⟨h1, h2⟩ := hinv.ledger top b hb.1
  obtain ⟨mem, -, htop⟩ := hinv.tops top h1 h2
  have htop := htop.later htime
  obtain ⟨c, hc, hbc⟩ := htop.promised b hb.1 hb.2.2
  obtain ⟨c', hc', hbc'⟩ := htop.promised b' hb'.1 hb'.2.2
  have hcc := List.inj_on_of_nodup_map htop.positions hc hc'
    (hbc.1.2.1.symm.trans (hpos.trans hbc'.1.2.1))
  have hids : b.reserveRequestId = b'.reserveRequestId :=
    hbc.1.1.trans ((congrArg _ hcc).trans hbc'.1.1.symm)
  exact hne (hb.2.1.symm.trans (hids.trans hb'.2.1))

/-- One level with four places. -/
def placesTopology : Topology := ⟨[4], by simp, by simp⟩

/-- The places 2 and 3 are free. -/
def placesMap : CoordinatorMap placesTopology where
  nNodes := 2
  freePositions _ := [2, 3]
  canReserve _ := true
  free_real level p hp g hg := by
    cases level with
    | zero =>
        cases hg
        simp only [List.mem_cons, List.not_mem_nil, or_false] at hp
        rcases hp with rfl | rfl <;> decide
    | succ level => cases hg

/-- The life of a booking, a minute. -/
def placesTtl : ℕ := 60000 * msec

/-- A servant of one level, with the bookings and the count of grants given. -/
def placesState (bookings : List Booking) (maxEldership : ℕ) : CoordState placesTopology Unit :=
  let memory : KeyedMap ℕ (GnodeMemory Unit) :=
    ⟨[(1, ⟨bookings, 4, maxEldership, none, none⟩)], by simp⟩
  ⟨placesTtl, 20 * msec, memory, memory⟩

/-- A booking that ends so many milliseconds after the start. -/
def bookingUntil (requestId : Int64) (newPos newEldership endMs : ℕ) : Booking :=
  ⟨requestId, newPos, newEldership, endMs * msec⟩

section Places

variable {C : CoordState placesTopology Unit → CoordinatorMap placesTopology → ℕ →
  CoordCmd Unit → Prop} {s s' : CoordState placesTopology Unit}
  {sent : List (SentReplica Unit)} {now : ℕ} {l : Ledger}

/-- A servant with nothing booked. -/
lemma placesRun_start : CoordRun C placesTtl (20 * msec) (placesState [] 0) [] 0 .blank :=
  CoordRun.start 0

/-- One more request. -/
lemma placesRun_reserve (h : CoordRun C placesTtl (20 * msec) s sent now l) (now' : ℕ)
    (htime : now ≤ now') (requestId : Int64) (r : Reservation)
    (hc : C s placesMap now' (.reserveEnter 1 requestId))
    (hcall : s.reserveEnter placesMap now' 1 requestId = (s', .ok r)) :
    CoordRun C placesTtl (20 * msec) s' sent now'
      (l.record [2, 3] now' placesTtl 1 requestId r) :=
  .reserved h htime hc hcall

/-- The record is read and packed. -/
lemma placesRun_snapshot {bookings : List Booking} {n : ℕ}
    (h : CoordRun C placesTtl (20 * msec) (placesState bookings n) sent now l) (packedAt : ℕ)
    (htime : now ≤ packedAt) :
    CoordRun C placesTtl (20 * msec) (placesState bookings n)
      (⟨1, packedAt, gnodeMemoryToWire ⟨bookings, 4, n, none, none⟩ packedAt⟩ :: sent) now l :=
  .snapshot h htime rfl

/-- What the servant's record is once it has come back. -/
lemma placesReplica_eq {bookings : List Booking} (hlen : bookings.length ≤ maxReplicaBookings)
    (n packedAt decodedAt : ℕ) :
    gnodeMemoryFromWire (gnodeMemoryToWire ⟨bookings, 4, n, none, none⟩ packedAt) decodedAt =
      (⟨bookings.map fun b => b.transported packedAt decodedAt, 4, n, none, none⟩ :
        GnodeMemory Unit) := by
  have hlist := gnodeMemoryFromWire_toWire (⟨bookings, 4, n, none, none⟩ : GnodeMemory Unit)
    packedAt decodedAt
  rw [List.take_of_length_le hlen] at hlist
  exact congrArg (fun l => (⟨l, 4, n, none, none⟩ : GnodeMemory Unit)) hlist

/-- The last snapshot comes back. -/
lemma placesRun_replica {bookings bookings' : List Booking} {n n' packedAt : ℕ}
    (h : CoordRun C placesTtl (20 * msec) (placesState bookings n)
      (⟨1, packedAt, gnodeMemoryToWire ⟨bookings', 4, n', none, none⟩ packedAt⟩ :: sent) now l)
    (now' : ℕ) (htime : now ≤ now') (hway : packedAt ≤ now') (back : List Booking)
    (hlen : bookings'.length ≤ maxReplicaBookings)
    (hback : bookings'.map (fun b => b.transported packedAt now') = back)
    (hc : C (placesState bookings n) placesMap now' (.applyReplica 1
      (gnodeMemoryFromWire (gnodeMemoryToWire ⟨bookings', 4, n', none, none⟩ packedAt) now'))) :
    CoordRun C placesTtl (20 * msec) (placesState back n')
      (⟨1, packedAt, gnodeMemoryToWire ⟨bookings', 4, n', none, none⟩ packedAt⟩ :: sent) now' l := by
  have hrec := (placesReplica_eq hlen n' packedAt now').trans (by rw [hback])
  have hrun := CoordRun.replica (C := C) h htime List.mem_cons_self hway (le_refl _) hc
  rw [hrec] at hrun
  exact hrun

/-- A place is given back. -/
lemma placesRun_delete (h : CoordRun C placesTtl (20 * msec) s sent now l) (now' : ℕ)
    (htime : now ≤ now') (requestId : Int64)
    (hc : C s placesMap now' (.deleteReserveEnter 1 requestId)) :
    CoordRun C placesTtl (20 * msec) (s.deleteReserveEnter 1 requestId) sent now'
      (l.release 1 requestId) :=
  .deleted h htime hc

end Places

/-- Three request ids, two replicas that come back before they are superseded, a repeated request
and a place given back: the place goes to the third id, with an eldership of its own. -/
theorem reservations_unique_three :
    ∃ (s : CoordState placesTopology Unit) (sent : List (SentReplica Unit)) (l : Ledger),
      CoordRun Orderly placesTtl (20 * msec) s sent (40 * msec) l ∧
        l.granted.map Grant.reservation = [⟨2, 1⟩, ⟨3, 2⟩, ⟨3, 3⟩] ∧
        l.Held 1 1 (40 * msec) (bookingUntil 1 2 1 60020) ∧
        l.Held 1 3 (40 * msec) (bookingUntil 3 3 3 60040) ∧
        (bookingUntil 1 2 1 60020).newPos ≠ (bookingUntil 3 3 3 60040).newPos ∧
        (s.reserveEnter placesMap (40 * msec) 1 1).2 = .ok ⟨2, 1⟩ := by
  have h1 := placesRun_reserve (C := Orderly) placesRun_start 0 (le_refl 0) 1 ⟨2, 1⟩ (fun _ _ _ => rfl)
    (show _ = (placesState [bookingUntil 1 2 1 60000] 1, _) from rfl)
  have h2 := placesRun_replica (placesRun_snapshot h1 (1 * msec) (by decide))
    (5 * msec) (by decide) (by decide) [bookingUntil 1 2 1 60004] (by decide) (by decide)
    (orderly_of_unchanged rfl (by decide) (le_refl _) (by decide) (by decide) (by decide)
      (by decide))
  have h3 := placesRun_reserve h2 (10 * msec) (by decide) 2 ⟨3, 2⟩ (fun _ _ _ => rfl)
    (show _ = (placesState [bookingUntil 1 2 1 60004, bookingUntil 2 3 2 60010] 2, _) from rfl)
  have h4 := placesRun_reserve h3 (20 * msec) (by decide) 1 ⟨2, 1⟩ (fun _ _ _ => rfl)
    (show _ = (placesState [bookingUntil 1 2 1 60020, bookingUntil 2 3 2 60010] 2, _) from rfl)
  have h5 := placesRun_replica (placesRun_snapshot h4 (20 * msec) (by decide))
    (25 * msec) (by decide) (by decide)
    [bookingUntil 1 2 1 60025, bookingUntil 2 3 2 60015] (by decide) (by decide)
    (orderly_of_unchanged rfl (by decide) (le_refl _) (by decide) (by decide) (by decide)
      (by decide))
  have h6 : CoordRun Orderly placesTtl (20 * msec) (placesState [bookingUntil 1 2 1 60025] 2) _
      (30 * msec) _ := placesRun_delete h5 (30 * msec) (by decide) 2 trivial
  have h7 := placesRun_reserve h6 (40 * msec) (by decide) 3 ⟨3, 3⟩ (fun _ _ _ => rfl)
    (show _ = (placesState [bookingUntil 1 2 1 60025, bookingUntil 3 3 3 60040] 3, _) from rfl)
  have huniq := reservations_unique h7
  refine ⟨_, _, _, h7, by decide, ⟨by decide, rfl, by decide⟩, ⟨by decide, rfl, by decide⟩, ?_, ?_⟩
  · exact huniq.1 1 1 3 _ _ _ (le_refl _) (by decide) ⟨by decide, rfl, by decide⟩
      ⟨by decide, rfl, by decide⟩
  · exact huniq.2.2.1 placesMap (40 * msec) 1 1 (bookingUntil 1 2 1 60020) (le_refl _)
      ⟨by decide, rfl, by decide⟩ fun _ _ _ => rfl

/-- A replica that comes back late undoes the second booking, and its place is promised again. -/
theorem not_reservations_unique_late :
    ∃ (s : CoordState placesTopology Unit) (sent : List (SentReplica Unit)) (l : Ledger),
      CoordRun (fun _ _ _ _ => True) placesTtl (20 * msec) s sent (2 * msec) l ∧
        l.Held 1 2 (2 * msec) (bookingUntil 2 3 2 60000) ∧
        l.Held 1 3 (2 * msec) (bookingUntil 3 3 2 60002) ∧
        (bookingUntil 2 3 2 60000).newPos = (bookingUntil 3 3 2 60002).newPos := by
  have h1 := placesRun_reserve (C := fun _ _ _ _ => True) placesRun_start 0 (le_refl 0) 1 ⟨2, 1⟩ trivial
    (show _ = (placesState [bookingUntil 1 2 1 60000] 1, _) from rfl)
  have h2 := placesRun_snapshot h1 0 (le_refl _)
  have h3 := placesRun_reserve h2 0 (le_refl _) 2 ⟨3, 2⟩ trivial
    (show _ = (placesState [bookingUntil 1 2 1 60000, bookingUntil 2 3 2 60000] 2, _) from rfl)
  have h4 := placesRun_replica h3 (2 * msec) (by decide) (by decide)
    [bookingUntil 1 2 1 60002] (by decide) (by decide) trivial
  have h5 := placesRun_reserve h4 (2 * msec) (le_refl _) 3 ⟨3, 2⟩ trivial
    (show _ = (placesState [bookingUntil 1 2 1 60002, bookingUntil 3 3 2 60002] 2, _) from rfl)
  exact ⟨_, _, _, h5, ⟨by decide, rfl, by decide⟩, ⟨by decide, rfl, by decide⟩, rfl⟩

end Netsukuku
