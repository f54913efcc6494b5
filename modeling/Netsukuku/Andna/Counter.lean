import Mathlib
import Netsukuku.Core.Outcome
import Netsukuku.Core.KeyedMap
import Netsukuku.Andna.Record

/-!
# The cap on names per registrant

A node that serves the Counter keeps, for every registrant's position, the hashes of the names
reserved there and when each reservation ends.  Reservations that have ended stay in the map until
a purge; only the live ones count against the cap.

* `CounterCache.tryReserve` — reserve a hash, or renew a live reservation.
* `CounterCache.purgeExpired` — drop what has ended.
* `CounterCache.tryReserve_cases` — everything a reservation can do.
* `counter_capped` — along every history the caps hold, from the last call on.
-/

namespace Netsukuku

local instance linearOrderUInt8 : LinearOrder UInt8 where
  le_refl := UInt8.le_refl
  le_trans _ _ _ := UInt8.le_trans
  le_antisymm _ _ := UInt8.le_antisymm
  le_total := UInt8.le_total
  lt_iff_le_not_ge a b := by
    rw [UInt8.lt_iff_toNat_lt, UInt8.le_iff_toNat_le, UInt8.le_iff_toNat_le]
    omega
  toDecidableLE := inferInstance
  min_def _ _ := rfl
  max_def _ _ := rfl

local instance linearOrderUInt32 : LinearOrder UInt32 where
  le_refl := UInt32.le_refl
  le_trans _ _ _ := UInt32.le_trans
  le_antisymm _ _ := UInt32.le_antisymm
  le_total := UInt32.le_total
  lt_iff_le_not_ge a b := by
    rw [UInt32.lt_iff_toNat_lt, UInt32.le_iff_toNat_le, UInt32.le_iff_toNat_le]
    omega
  toDecidableLE := inferInstance
  min_def _ _ := rfl
  max_def _ _ := rfl

/-- The `blake3` hash of a name, as the Counter keeps it. -/
structure HostnameHash where
  bytes : List UInt8
  length_bytes : bytes.length = 32

namespace HostnameHash

lemma bytes_injective : Function.Injective HostnameHash.bytes := by
  rintro ⟨a, ha⟩ ⟨b, hb⟩ h
  cases h
  rfl

instance : LinearOrder HostnameHash := LinearOrder.lift' HostnameHash.bytes bytes_injective

end HostnameHash

inductive CounterRejected where
  | capExceeded (cap : ℕ)
  | tooManyRegistrants (cap : ℕ)
  deriving DecidableEq, Repr

/-- What one registrant has reserved: the hash of a name, and when the reservation ends. -/
structure Reservations where
  hashes : KeyedMap HostnameHash ℕ

namespace Reservations

def liveCount (r : Reservations) (now : ℕ) : ℕ := r.hashes.values.countP fun exp => now < exp

variable {r : Reservations} {hash : HostnameHash} {t now exp : ℕ}

/-- Reservations only end. -/
lemma liveCount_anti (r : Reservations) (h : t ≤ now) : r.liveCount now ≤ r.liveCount t :=
  List.countP_mono_left fun _ _ hlive =>
    decide_eq_true (lt_of_le_of_lt h (of_decide_eq_true hlive))

/-- Beside the reservation of one hash. -/
lemma liveCount_erase_le :
    (⟨r.hashes.erase hash⟩ : Reservations).liveCount now ≤ r.liveCount now := by
  cases hget : r.hashes.get? hash with
  | none =>
      rw [liveCount, liveCount, KeyedMap.values, KeyedMap.values,
        KeyedMap.erase_entries_of_get?_none hget]
  | some exp =>
      rw [liveCount, liveCount, KeyedMap.countP_values_erase hget]
      exact Nat.le_add_right _ _

/-- A live reservation counts beside the others. -/
lemma liveCount_erase_of_live (hget : r.hashes.get? hash = some exp) (hlive : now < exp) :
    r.liveCount now = (⟨r.hashes.erase hash⟩ : Reservations).liveCount now + 1 := by
  rw [liveCount, liveCount, KeyedMap.countP_values_erase hget, if_pos (decide_eq_true hlive)]

/-- A reservation made or renewed is at most one more than those of the other hashes. -/
lemma liveCount_insertOrdered_le :
    (⟨r.hashes.insertOrdered hash exp⟩ : Reservations).liveCount now ≤
      (⟨r.hashes.erase hash⟩ : Reservations).liveCount now + 1 := by
  rw [liveCount, liveCount, KeyedMap.countP_values_insertOrdered]
  exact Nat.add_le_add_left (by split <;> simp) _

/-- A purge takes nothing live away. -/
lemma liveCount_retain_le :
    (⟨r.hashes.retain fun _ exp => t < exp⟩ : Reservations).liveCount now ≤ r.liveCount now :=
  (List.filter_sublist.map Prod.snd).countP_le

end Reservations

/-- The reservations of every registrant seen, by network position. -/
structure CounterCache where
  byRegistrant : KeyedMap (List UInt32) Reservations

namespace CounterCache

def new : CounterCache := ⟨KeyedMap.empty⟩

/-- `entry(..).or_default()`: a registrant not seen before has reserved nothing. -/
def orDefault (c : CounterCache) (registrant : List UInt32) : CounterCache :=
  if c.byRegistrant.contains registrant then c
  else ⟨c.byRegistrant.insertOrdered registrant ⟨KeyedMap.empty⟩⟩

/-- `try_reserve`: the cache afterwards, and how many reservations of the registrant are live. -/
def tryReserve (c : CounterCache) (registrant : List UInt32) (hash : HostnameHash) (now : ℕ)
    (ttl : Duration) (cap maxRegistrants : ℕ) : CounterCache × Outcome CounterRejected ℕ :=
  if !c.byRegistrant.contains registrant &&
      decide (maxRegistrants ≤ c.byRegistrant.entries.length) then
    (c, Outcome.fail (.tooManyRegistrants maxRegistrants))
  else
    let c := c.orDefault registrant
    let entry := (c.byRegistrant.get? registrant).getD ⟨KeyedMap.empty⟩
    let isLiveRenewal := (entry.hashes.get? hash).any fun exp => decide (now < exp)
    if !isLiveRenewal && decide (cap ≤ entry.liveCount now) then
      (c, Outcome.fail (.capExceeded cap))
    else
      match Outcome.checkedAdd 64 now ttl.asSecs with
      | .error e => (c, .error e)
      | .ok exp =>
          let entry : Reservations := ⟨entry.hashes.insertOrdered hash exp⟩
          (⟨c.byRegistrant.insertOrdered registrant entry⟩, .ok (entry.liveCount now))

/-- `purge_expired`. -/
def purgeExpired (c : CounterCache) (now : ℕ) : CounterCache :=
  let purged := c.byRegistrant.filterMapValues fun r =>
    some (⟨r.hashes.retain fun _ exp => now < exp⟩ : Reservations)
  ⟨purged.retain fun _ r => !r.hashes.entries.isEmpty⟩

/-- `snapshot`: the live reservations of every registrant that has any. -/
def snapshot (c : CounterCache) (now : ℕ) : KeyedMap (List UInt32) ℕ :=
  c.byRegistrant.filterMapValues fun r =>
    if 0 < r.liveCount now then some (r.liveCount now) else none

/-- How many live reservations a snapshot shows for the registrant. -/
def count (c : CounterCache) (registrant : List UInt32) (now : ℕ) : ℕ :=
  ((c.snapshot now).get? registrant).getD 0

/-- The registrant holds a live reservation of the hash. -/
def Live (c : CounterCache) (registrant : List UInt32) (hash : HostnameHash) (now : ℕ) : Prop :=
  ∃ r exp, c.byRegistrant.get? registrant = some r ∧ r.hashes.get? hash = some exp ∧ now < exp

/-! ## What a reservation can do -/

section Reserve

variable {c : CounterCache} {registrant : List UInt32} {hash : HostnameHash} {now cap : ℕ}
  {maxRegistrants : ℕ} {ttl : Duration}

/-- The reservations of the registrant; none of one not seen before. -/
def entry (c : CounterCache) (registrant : List UInt32) : Reservations :=
  (c.byRegistrant.get? registrant).getD ⟨KeyedMap.empty⟩

lemma entry_of_not_contains (h : ¬c.byRegistrant.contains registrant = true) :
    c.entry registrant = ⟨KeyedMap.empty⟩ := by
  rw [KeyedMap.contains, Option.not_isSome_iff_eq_none] at h
  rw [entry, h, Option.getD_none]

lemma live_iff : c.Live registrant hash now ↔
    ((c.entry registrant).hashes.get? hash).any (fun exp => decide (now < exp)) = true := by
  unfold Live entry
  cases c.byRegistrant.get? registrant with
  | none => simp
  | some r => simp [Option.any_eq_true]

/-- Whoever reserves is tracked afterwards; the reservations are what they were. -/
lemma get?_orDefault (c : CounterCache) (registrant : List UInt32) :
    (c.orDefault registrant).byRegistrant.get? =
      Function.update c.byRegistrant.get? registrant (some (c.entry registrant)) := by
  unfold orDefault entry
  cases hget : c.byRegistrant.get? registrant with
  | none =>
      simp [KeyedMap.contains, hget, KeyedMap.get?_insertOrdered_eq_update]
  | some r =>
      simp only [KeyedMap.contains, hget, Option.isSome_some, if_true, Option.getD_some]
      rw [← hget, Function.update_eq_self]

lemma orDefault_of_contains (h : c.byRegistrant.contains registrant = true) :
    c.orDefault registrant = c := if_pos h

/-- One registrant more than before, or none. -/
lemma length_orDefault_le
    (h : c.byRegistrant.contains registrant = true ∨
      c.byRegistrant.entries.length < maxRegistrants)
    (hlen : c.byRegistrant.entries.length ≤ maxRegistrants) :
    (c.orDefault registrant).byRegistrant.entries.length ≤ maxRegistrants := by
  unfold orDefault
  split
  · exact hlen
  · next hnot =>
      rw [KeyedMap.length_insertOrdered, if_neg hnot]
      exact h.resolve_left hnot

/-- **Everything a reservation can do.**  It is refused and changes nothing; or the registrant is
tracked, and then either the expiry overflows or the reservation is stored. -/
theorem tryReserve_cases (c : CounterCache) (registrant : List UInt32) (hash : HostnameHash)
    (now : ℕ) (ttl : Duration) (maxRegistrants : ℕ) (hcap : 1 ≤ cap) :
    (∃ e, c.tryReserve registrant hash now ttl cap maxRegistrants = (c, .error (.err e)) ∧
      ¬c.Live registrant hash now) ∨
    ((c.byRegistrant.contains registrant = true ∨
        c.byRegistrant.entries.length < maxRegistrants) ∧
      (c.Live registrant hash now ∨ (c.entry registrant).liveCount now < cap) ∧
      ((∃ site, c.tryReserve registrant hash now ttl cap maxRegistrants =
          (c.orDefault registrant, .error (.panic site))) ∨
        ∃ r : Reservations,
          r = ⟨(c.entry registrant).hashes.insertOrdered hash (now + ttl.asSecs)⟩ ∧
          c.tryReserve registrant hash now ttl cap maxRegistrants =
            (⟨(c.orDefault registrant).byRegistrant.insertOrdered registrant r⟩,
              .ok (r.liveCount now)))) := by
  have hentry : ((c.orDefault registrant).byRegistrant.get? registrant).getD ⟨KeyedMap.empty⟩ =
      c.entry registrant := by
    rw [get?_orDefault, Function.update_self, Option.getD_some]
  unfold tryReserve
  split
  · next hfull =>
      rw [Bool.and_eq_true, Bool.not_eq_true', decide_eq_true_eq] at hfull
      refine .inl ⟨_, rfl, ?_⟩
      rintro ⟨r, exp, hget, -⟩
      simp [KeyedMap.contains, hget] at hfull
  · next hroom =>
      simp only [hentry]
      split
      · next hfull =>
          rw [Bool.and_eq_true, Bool.not_eq_true', decide_eq_true_eq] at hfull
          -- a registrant not seen before has nothing live, and the cap leaves room for one
          have hknown : c.byRegistrant.contains registrant = true := by
            by_contra hnew
            rw [entry_of_not_contains hnew] at hfull
            exact absurd (hcap.trans hfull.2) (by simp [Reservations.liveCount])
          rw [orDefault_of_contains hknown]
          refine .inl ⟨_, rfl, ?_⟩
          rw [live_iff, hfull.1]
          exact Bool.false_ne_true
      · next hfree =>
          have htracked : c.byRegistrant.contains registrant = true ∨
              c.byRegistrant.entries.length < maxRegistrants := by
            by_contra hnot
            rw [not_or, not_lt] at hnot
            simp [hnot] at hroom
          refine .inr ⟨htracked, ?_, ?_⟩
          · by_contra hnot
            rw [not_or, not_lt] at hnot
            rw [live_iff, Bool.not_eq_true] at hnot
            simp [hnot] at hfree
          · cases hadd : (Outcome.checkedAdd 64 now ttl.asSecs : Outcome CounterRejected ℕ) with
            | ok exp =>
                obtain rfl := Outcome.checkedAdd_eq_ok hadd
                exact .inr ⟨_, rfl, rfl⟩
            | error e =>
                unfold Outcome.checkedAdd at hadd
                split at hadd
                · cases hadd
                · cases hadd
                  exact .inl ⟨_, rfl⟩

end Reserve

/-! ## The caps along a history -/

section Caps

variable {c : CounterCache} {registrant : List UInt32} {hash : HostnameHash} {t now cap : ℕ}
  {maxRegistrants : ℕ} {ttl : Duration}

/-- A snapshot shows the live reservations. -/
lemma count_eq (c : CounterCache) (registrant : List UInt32) (now : ℕ) :
    c.count registrant now = (c.entry registrant).liveCount now := by
  rw [count, snapshot, KeyedMap.get?_filterMapValues, entry]
  cases c.byRegistrant.get? registrant with
  | none => rfl
  | some r =>
      rw [Option.bind_some, Option.getD_some]
      split
      · rfl
      · next hzero => exact (Nat.eq_zero_of_not_pos hzero).symm

/-- From `t` on every registrant is within its cap, and so is the number of registrants. -/
structure Capped (cap maxRegistrants : ℕ) (c : CounterCache) (t : ℕ) : Prop where
  live : ∀ registrant now, t ≤ now → (c.entry registrant).liveCount now ≤ cap
  tracked : c.byRegistrant.entries.length ≤ maxRegistrants

lemma capped_new (cap maxRegistrants t : ℕ) : Capped cap maxRegistrants new t where
  live _ _ _ := by simp [entry, new, Reservations.liveCount]
  tracked := by simp [new]

lemma Capped.later (h : Capped cap maxRegistrants c t) (htime : t ≤ now) :
    Capped cap maxRegistrants c now where
  live registrant later hlater := h.live registrant later (htime.trans hlater)
  tracked := h.tracked

/-- Tracking a registrant reserves nothing. -/
lemma Capped.orDefault (h : Capped cap maxRegistrants c t)
    (hroom : c.byRegistrant.contains registrant = true ∨
      c.byRegistrant.entries.length < maxRegistrants) :
    Capped cap maxRegistrants (c.orDefault registrant) t where
  live registrant' now hnow := by
    have hentry : (c.orDefault registrant).entry registrant' = c.entry registrant' := by
      unfold entry
      rw [get?_orDefault]
      by_cases hsame : registrant' = registrant
      · rw [hsame, Function.update_self, Option.getD_some, entry]
      · rw [Function.update_of_ne hsame]
    rw [hentry]
    exact h.live registrant' now hnow
  tracked := length_orDefault_le hroom h.tracked

/-- A reservation stored at `now` counts once: in the place of a live one of the same hash, or in
the room the cap leaves. -/
lemma liveCount_reserved_le (h : Capped cap maxRegistrants c t) (htime : t ≤ now)
    (hfree : c.Live registrant hash now ∨ (c.entry registrant).liveCount now < cap)
    {later exp : ℕ} (hlater : now ≤ later) :
    (⟨(c.entry registrant).hashes.insertOrdered hash exp⟩ :
      Reservations).liveCount later ≤ cap := by
  have hothers := Nat.add_le_add_right
    (Reservations.liveCount_anti ⟨(c.entry registrant).hashes.erase hash⟩ hlater) 1
  refine Reservations.liveCount_insertOrdered_le.trans (hothers.trans ?_)
  rcases hfree with hlive | hroom
  · obtain ⟨exp', hget, hexp⟩ := (Option.any_eq_true _ _).mp (live_iff.mp hlive)
    rw [← Reservations.liveCount_erase_of_live hget (of_decide_eq_true hexp)]
    exact h.live registrant now htime
  · exact (Nat.add_le_add_right Reservations.liveCount_erase_le 1).trans hroom

/-- **One reservation keeps the caps.** -/
theorem Capped.tryReserve (h : Capped cap maxRegistrants c t) (hcap : 1 ≤ cap) (htime : t ≤ now) :
    Capped cap maxRegistrants (c.tryReserve registrant hash now ttl cap maxRegistrants).1 now := by
  rcases tryReserve_cases c registrant hash now ttl maxRegistrants hcap with
    ⟨e, hrun, -⟩ | ⟨hroom, hfree, ⟨site, hrun⟩ | ⟨r, rfl, hrun⟩⟩
  · rw [hrun]
    exact h.later htime
  · rw [hrun]
    exact (h.orDefault hroom).later htime
  · rw [hrun]
    have hdefault := h.orDefault hroom
    have hcontains : (c.orDefault registrant).byRegistrant.contains registrant = true := by
      rw [KeyedMap.contains, get?_orDefault, Function.update_self]
      rfl
    refine ⟨fun registrant' later hlater => ?_, ?_⟩
    · rw [entry, KeyedMap.get?_insertOrdered_eq_update]
      by_cases hsame : registrant' = registrant
      · rw [hsame, Function.update_self, Option.getD_some]
        exact liveCount_reserved_le h htime hfree hlater
      · rw [Function.update_of_ne hsame]
        exact hdefault.live registrant' later (htime.trans hlater)
    · rw [KeyedMap.length_insertOrdered, if_pos hcontains]
      exact hdefault.tracked

/-- **A purge keeps the caps.** -/
theorem Capped.purgeExpired (h : Capped cap maxRegistrants c t) (htime : t ≤ now) :
    Capped cap maxRegistrants (c.purgeExpired now) now where
  live registrant later hlater := by
    have hle : ((c.purgeExpired now).entry registrant).liveCount later ≤
        (c.entry registrant).liveCount later := by
      rw [entry, entry, CounterCache.purgeExpired, KeyedMap.get?_retain,
        KeyedMap.get?_filterMapValues]
      cases c.byRegistrant.get? registrant with
      | none => exact le_rfl
      | some r =>
          rw [Option.bind_some, Option.filter_some]
          split
          · exact Reservations.liveCount_retain_le
          · exact Nat.zero_le _
    exact hle.trans (h.live registrant later (htime.trans hlater))
  tracked := (List.length_filter_le _ _).trans ((List.length_filterMap_le _ _).trans h.tracked)

/-- A history of the cache and the time of its last call.  A reservation is a step whatever comes
of it. -/
inductive History (ttl : Duration) (cap maxRegistrants : ℕ) : CounterCache → ℕ → Prop where
  | start (t : ℕ) : History ttl cap maxRegistrants CounterCache.new t
  | reserved {c : CounterCache} {t : ℕ} (registrant : List UInt32) (hash : HostnameHash) (now : ℕ)
      (h : History ttl cap maxRegistrants c t) (htime : t ≤ now) :
      History ttl cap maxRegistrants
        (c.tryReserve registrant hash now ttl cap maxRegistrants).1 now
  | purged {c : CounterCache} {t : ℕ} (now : ℕ) (h : History ttl cap maxRegistrants c t)
      (htime : t ≤ now) : History ttl cap maxRegistrants (c.purgeExpired now) now

theorem History.capped (h : History ttl cap maxRegistrants c t) (hcap : 1 ≤ cap) :
    Capped cap maxRegistrants c t := by
  induction h with
  | start t => exact capped_new cap maxRegistrants t
  | reserved registrant hash now h htime ih => exact ih.tryReserve hcap htime
  | purged now h htime ih => exact ih.purgeExpired htime

end Caps

end CounterCache

open CounterCache

/-- **The caps of the Counter hold along every history.**  At every time from the last call on, a
registrant holds at most `cap` live reservations, and at most `maxRegistrants` are tracked;
whatever is called next, a live hash is never refused to the registrant that holds it, and a
refused call changes nothing at all. -/
theorem counter_capped {ttl : Duration} {cap maxRegistrants : ℕ} (hcap : 1 ≤ cap)
    {c : CounterCache} {t : ℕ} (h : CounterCache.History ttl cap maxRegistrants c t) :
    (∀ registrant now, t ≤ now → c.count registrant now ≤ cap) ∧
      c.byRegistrant.entries.length ≤ maxRegistrants ∧
      ∀ registrant hash now e,
        (c.tryReserve registrant hash now ttl cap maxRegistrants).2 = .error (.err e) →
          ¬c.Live registrant hash now ∧
            (c.tryReserve registrant hash now ttl cap maxRegistrants).1 = c := by
  have hcapped := h.capped hcap
  refine ⟨fun registrant now hnow => ?_, hcapped.tracked, fun registrant hash now e hrefused => ?_⟩
  · rw [count_eq]
    exact hcapped.live registrant now hnow
  · rcases tryReserve_cases c registrant hash now ttl maxRegistrants hcap with
      ⟨e', hrun, hdead⟩ | ⟨-, -, ⟨site, hrun⟩ | ⟨r, -, hrun⟩⟩
    · rw [hrun]
      exact ⟨hdead, rfl⟩
    · rw [hrun] at hrefused
      cases hrefused
    · rw [hrun] at hrefused
      cases hrefused

/-- A hash to try the cache with. -/
def hashOf (b : UInt8) : HostnameHash := ⟨List.replicate 32 b, List.length_replicate⟩

/-- With a cap of one, a second name is refused while the first is live. -/
theorem counter_capped_one :
    ∃ c : CounterCache, c.count [0] 5 ≤ 1 ∧ c.byRegistrant.entries.length ≤ 1 ∧
      (c.tryReserve [0] (hashOf 2) 5 (.fromSecs 10) 1 1).1 = c := by
  have hhistory : CounterCache.History (.fromSecs 10) 1 1
      (CounterCache.new.tryReserve [0] (hashOf 1) 0 (.fromSecs 10) 1 1).1 0 :=
    .reserved [0] (hashOf 1) 0 (.start 0) le_rfl
  obtain ⟨hcount, htracked, hrefused⟩ := counter_capped le_rfl hhistory
  exact ⟨_, hcount [0] 5 (by decide), htracked,
    (hrefused [0] (hashOf 2) 5 (.capExceeded 1) (by decide)).2⟩

end Netsukuku
