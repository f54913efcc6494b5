import Mathlib
import Netsukuku.Andna.Record

/-!
# Who owns a name, and for how long

A record is the only memory the cache has of a name's owner and of the sequence numbers already
spent, and it goes away when it expires.  What keeps a captured request from being played again
after that is its signed time stamp: a request accepted at `t` is stale from `t` plus twice the
skew on, and a record lives for `ttl` from its last acceptance on.

* `register_cases` — everything a call of `register` can do.
* `Guarded` — the invariant: for as long as an accepted request would still pass for fresh, a live
  record of its owner with at least its sequence stands in the way.
* `registration_safe` — ownership, strictly growing sequences, no request accepted twice, and a
  refusal leaves no trace, along every history of the cache.
-/

namespace Netsukuku

namespace Cache

variable {Key Signature : Type}

/-- The record an accepted request leaves behind. -/
structure Accepted (c : Cache Key) (req : RegisterRequest Key Signature) (now : ℕ) (ttl : Duration)
    (c' : Cache Key) (record : HostedRecord Key) : Prop where
  records : c'.records = c.records.insertOrdered req.hostname record
  owner : record.ownerKey = req.ownerKey
  sequence : record.sequence = req.sequence
  expires : record.expiresAt = now + ttl.asSecs
  fresh : Nat.dist req.timestampUnix.toNat now ≤ maxTimestampSkewSecs
  renews : ∀ existing, c.records.get? req.hostname = some existing → now < existing.expiresAt →
    existing.ownerKey = req.ownerKey ∧ existing.sequence < req.sequence

/-- Purging drops exactly what is expired. -/
lemma get?_purgeExpired {c : Cache Key} {now : ℕ} {name : Hostname} {r : HostedRecord Key}
    (hget : c.records.get? name = some r) (hlive : now < r.expiresAt) :
    (c.purgeExpired now).1.records.get? name = some r := by
  -- The loop over any list of names that does not hold `name` leaves its record alone.
  have hloop : ∀ (names : List Hostname) (m : KeyedMap Hostname (HostedRecord Key)),
      name ∉ names → (names.foldl KeyedMap.erase m).get? name = m.get? name := by
    intro names
    induction names with
    | nil => exact fun _ _ => rfl
    | cons n names ih =>
        intro m hnot
        rw [List.mem_cons, not_or] at hnot
        rw [List.foldl_cons, ih _ hnot.2, KeyedMap.get?_erase_of_ne _ hnot.1]
  rw [purgeExpired, hloop, hget]
  intro hmem
  simp only [List.mem_map, List.mem_filter] at hmem
  obtain ⟨⟨n, r'⟩, ⟨hr', hexp⟩, rfl⟩ := hmem
  rw [KeyedMap.mem_entries_iff.mp hr'] at hget
  cases hget
  simp only [HostedRecord.isExpired, decide_eq_true_eq] at hexp
  omega

/-- A live record across an accepted request: it keeps its owner, and its sequence moves on if the
request was about it. -/
lemma Accepted.live {c c' : Cache Key} {req : RegisterRequest Key Signature} {now : ℕ}
    {ttl : Duration} {record : HostedRecord Key} (h : Accepted c req now ttl c' record)
    {name : Hostname} {r : HostedRecord Key} (hget : c.records.get? name = some r)
    (hlive : now < r.expiresAt) :
    (name = req.hostname ∧ c'.records.get? name = some record ∧ record.ownerKey = r.ownerKey ∧
        r.sequence < record.sequence) ∨
      (name ≠ req.hostname ∧ c'.records.get? name = some r) := by
  by_cases hname : name = req.hostname
  · subst hname
    obtain ⟨hown, hseq⟩ := h.renews r hget hlive
    refine Or.inl ⟨rfl, ?_, h.owner.trans hown.symm, h.sequence ▸ hseq⟩
    rw [h.records, KeyedMap.get?_insertOrdered, KeyedMap.get?_insert_self]
  · refine Or.inr ⟨hname, ?_⟩
    rw [h.records, KeyedMap.get?_insertOrdered, KeyedMap.get?_insert_of_ne _ _ hname, hget]

/-- From `t` on, and until the request's time stamp is too old to pass, a live record of its owner
with at least its sequence is in the way. -/
structure Guarded (c : Cache Key) (t : ℕ) (req : RegisterRequest Key Signature) : Prop where
  signed : req.timestampUnix.toNat ≤ t + maxTimestampSkewSecs
  record : ∀ now, t ≤ now → now ≤ req.timestampUnix.toNat + maxTimestampSkewSecs →
    ∃ r, c.records.get? req.hostname = some r ∧ now < r.expiresAt ∧
      r.ownerKey = req.ownerKey ∧ req.sequence ≤ r.sequence

/-- Time alone does not lift the guard. -/
lemma Guarded.later {c : Cache Key} {t now : ℕ} {req : RegisterRequest Key Signature}
    (h : Guarded c t req) (htime : t ≤ now) : Guarded c now req where
  signed := by
    have := h.signed
    omega
  record := fun later hlater => h.record later (htime.trans hlater)

/-- A request just accepted is guarded: its record outlives its freshness. -/
lemma Accepted.guarded {c c' : Cache Key} {req : RegisterRequest Key Signature} {now : ℕ}
    {ttl : Duration} {record : HostedRecord Key} (h : Accepted c req now ttl c' record)
    (httl : 2 * maxTimestampSkewSecs < ttl.asSecs) : Guarded c' now req := by
  have hskew := h.fresh
  rw [Nat.dist] at hskew
  refine ⟨by omega, fun later _ hlater => ⟨record, ?_, ?_, h.owner, h.sequence ▸ UInt64.le_refl _⟩⟩
  · rw [h.records, KeyedMap.get?_insertOrdered, KeyedMap.get?_insert_self]
  · rw [h.expires]
    omega

/-- A further accepted request does not lift the guard of an earlier one. -/
lemma Guarded.accept {c c' : Cache Key} {t now : ℕ} {ttl : Duration} {record : HostedRecord Key}
    {old req : RegisterRequest Key Signature} (hold : Guarded c t old)
    (hreq : Accepted c req now ttl c' record) (httl : 2 * maxTimestampSkewSecs < ttl.asSecs)
    (htime : t ≤ now) : Guarded c' now old := by
  have hsigned := hold.signed
  refine ⟨by omega, fun later hlater hfresh => ?_⟩
  obtain ⟨r, hget, hlive, hown, hseq⟩ := hold.record later (htime.trans hlater) hfresh
  rcases hreq.live hget (lt_of_le_of_lt hlater hlive) with
    ⟨-, hget', hown', hseq'⟩ | ⟨-, hget'⟩
  · refine ⟨record, hget', ?_, hown'.trans hown, ?_⟩
    · rw [hreq.expires]
      omega
    · exact UInt64.le_of_lt (UInt64.lt_of_le_of_lt hseq hseq')
  · exact ⟨r, hget', hlive, hown, hseq⟩

/-- Neither does purging. -/
lemma Guarded.purge {c : Cache Key} {t now : ℕ} {req : RegisterRequest Key Signature}
    (h : Guarded c t req) (htime : t ≤ now) : Guarded (c.purgeExpired now).1 now req := by
  have hlater := h.later htime
  refine ⟨hlater.signed, fun later hle hfresh => ?_⟩
  obtain ⟨r, hget, hlive, hown, hseq⟩ := hlater.record later hle hfresh
  exact ⟨r, get?_purgeExpired hget (lt_of_le_of_lt hle hlive), hlive, hown, hseq⟩

/-- A guarded request is not accepted. -/
lemma Guarded.not_accepted {c c' : Cache Key} {t now : ℕ} {ttl : Duration}
    {record : HostedRecord Key} {req : RegisterRequest Key Signature} (h : Guarded c t req)
    (htime : t ≤ now) : ¬ Accepted c req now ttl c' record := by
  intro hacc
  have hskew := hacc.fresh
  rw [Nat.dist] at hskew
  obtain ⟨r, hget, hlive, -, hseq⟩ := h.record now htime (by omega)
  exact absurd (hacc.renews r hget hlive).2 (UInt64.not_lt.mpr hseq)

/-- The record of `name` is still `r`. -/
def Kept (c' : Cache Key) (name : Hostname) (r : HostedRecord Key) : Prop :=
  c'.records.get? name = some r

/-- The record of `name` still has the owner of `r`, and a greater sequence. -/
def Renewed (c' : Cache Key) (name : Hostname) (r : HostedRecord Key) : Prop :=
  ∃ r', c'.records.get? name = some r' ∧ r'.ownerKey = r.ownerKey ∧ r.sequence < r'.sequence

section Calls

variable [DecidableEq Key]

/-- The renewal rules, as `register` applies them to the record it finds. -/
lemma checkSlot_eq_ok {c : Cache Key} {req : RegisterRequest Key Signature} {now : ℕ}
    {interval : Duration} (h : c.checkSlot req now interval = .ok ()) {existing : HostedRecord Key}
    (hget : c.records.get? req.hostname = some existing) (hlive : now < existing.expiresAt) :
    existing.ownerKey = req.ownerKey ∧ existing.sequence < req.sequence := by
  have hexp : existing.isExpired now = false := by
    simp only [HostedRecord.isExpired, decide_eq_false_iff_not]
    omega
  by_cases hown : existing.ownerKey = req.ownerKey
  · have hslot : c.isFreshSlot req now = false := by
      simp [isFreshSlot, hget, hexp, hown]
    rw [checkSlot, if_neg (by rw [hslot]; decide), hget] at h
    simp only [Outcome.expect_some, Outcome.ok_bind] at h
    refine ⟨hown, ?_⟩
    by_contra hseq
    rw [if_pos (UInt64.not_lt.mp hseq)] at h
    cases h
  · have hslot : c.isFreshSlot req now = true := by
      simp [isFreshSlot, hget, hown]
    rw [checkSlot, if_pos hslot, hget] at h
    simp [hexp, hown, Outcome.fail] at h

variable [Ed25519 Key Signature]

/-- What the checks leave of an accepted request: the signed time is near, the expiry lies `ttl`
ahead, and the record already there lets it through. -/
lemma checkRegister_eq_ok {c : Cache Key} {req : RegisterRequest Key Signature} {now : ℕ}
    {ttl : Duration} {limits : RegisterLimits} {snsd : SnsdTable} {expiresAt : ℕ}
    (h : c.checkRegister req now ttl limits = .ok (snsd, expiresAt)) :
    Nat.dist req.timestampUnix.toNat now ≤ maxTimestampSkewSecs ∧
      expiresAt = now + ttl.asSecs ∧ c.checkSlot req now limits.minRenewalInterval = .ok () := by
  simp only [checkRegister] at h
  split at h
  · cases h
  split at h
  · cases h
  split at h
  · cases h
  split at h
  · cases h
  rename_i hskew
  split at h
  · cases h
  obtain ⟨⟨⟩, hslot, h⟩ := Outcome.bind_eq_ok.mp h
  obtain ⟨_, -, h⟩ := Outcome.bind_eq_ok.mp h
  obtain ⟨e, he, h⟩ := Outcome.bind_eq_ok.mp h
  cases h
  refine ⟨not_lt.mp hskew, ?_, hslot⟩
  simp only [Outcome.checkedAdd] at he
  split at he
  · cases he
    rfl
  · cases he

/-- Everything a call of `register` can do. -/
theorem register_cases (c : Cache Key) (req : RegisterRequest Key Signature) (now : ℕ)
    (ttl : Duration) (limits : RegisterLimits) :
    (∃ e, c.register req now ttl limits = (c, .error e)) ∨
      ∃ c' out record, c.register req now ttl limits = (c', .ok out) ∧
        Accepted c req now ttl c' record := by
  rw [register]
  rcases h : c.checkRegister req now ttl limits with e | ⟨snsd, expiresAt⟩
  · exact Or.inl ⟨e, rfl⟩
  obtain ⟨hskew, hexp, hslot⟩ := checkRegister_eq_ok h
  have hrenews : ∀ existing, c.records.get? req.hostname = some existing →
      now < existing.expiresAt →
        existing.ownerKey = req.ownerKey ∧ existing.sequence < req.sequence :=
    fun existing hget hlive => checkSlot_eq_ok hslot hget hlive
  simp only
  by_cases hfresh : c.isFreshSlot req now = true
  · rw [if_pos hfresh]
    exact Or.inr ⟨_, _, _, rfl, rfl, rfl, rfl, hexp, hskew, hrenews⟩
  · rw [if_neg hfresh]
    -- Only a live record of the same owner is renewed, so the owner stays what it was.
    cases hget : c.records.get? req.hostname with
    | none => exact Or.inl ⟨_, rfl⟩
    | some record =>
        have hlive : now < record.expiresAt := by
          by_contra hnot
          exact hfresh (by simp [isFreshSlot, hget, HostedRecord.isExpired, not_lt.mp hnot])
        exact Or.inr ⟨_, _, _, rfl, rfl, (hrenews record hget hlive).1, rfl, hexp, hskew, hrenews⟩

/-- A refused request leaves the cache as it was. -/
lemma register_of_error {c c' : Cache Key} {req : RegisterRequest Key Signature} {now : ℕ}
    {ttl : Duration} {limits : RegisterLimits} {e : Fault RegisterRejected}
    (h : c.register req now ttl limits = (c', .error e)) : c' = c := by
  rcases register_cases c req now ttl limits with ⟨e', h'⟩ | ⟨_, _, _, h', _⟩
  · rw [h'] at h
    exact (Prod.mk.inj h).1.symm
  · rw [h'] at h
    cases (Prod.mk.inj h).2

/-- An accepted request leaves its record behind. -/
lemma register_of_ok {c c' : Cache Key} {req : RegisterRequest Key Signature} {now : ℕ}
    {ttl : Duration} {limits : RegisterLimits} {out : RegisterOutcome}
    (h : c.register req now ttl limits = (c', .ok out)) :
    ∃ record, Accepted c req now ttl c' record := by
  rcases register_cases c req now ttl limits with ⟨e', h'⟩ | ⟨_, _, record, h', hacc⟩
  · rw [h'] at h
    cases (Prod.mk.inj h).2
  · rw [h'] at h
    cases h
    exact ⟨record, hacc⟩

/-- A history of the cache: its state, the time of the last call, and the requests accepted so
far, the latest first.  A call that panics ends the history. -/
inductive History (ttl : Duration) :
    Cache Key → ℕ → List (RegisterRequest Key Signature) → Prop where
  | start (t : ℕ) : History ttl Cache.new t []
  | accepted {c c' : Cache Key} {t now : ℕ} {log} {req} {limits : RegisterLimits} {out}
      (h : History ttl c t log) (htime : t ≤ now)
      (hcall : c.register req now ttl limits = (c', .ok out)) : History ttl c' now (req :: log)
  | rejected {c c' : Cache Key} {t now : ℕ} {log} {req : RegisterRequest Key Signature}
      {limits : RegisterLimits} {e}
      (h : History ttl c t log) (htime : t ≤ now)
      (hcall : c.register req now ttl limits = (c', .error (.err e))) : History ttl c' now log
  | purged {c : Cache Key} {t now : ℕ} {log}
      (h : History ttl c t log) (htime : t ≤ now) : History ttl (c.purgeExpired now).1 now log

/-- Along every history, all requests accepted so far are guarded. -/
theorem History.guarded {ttl : Duration} {c : Cache Key} {t : ℕ}
    {log : List (RegisterRequest Key Signature)} (h : History ttl c t log)
    (httl : 2 * maxTimestampSkewSecs < ttl.asSecs) : ∀ req ∈ log, Guarded c t req := by
  induction h with
  | start t => simp
  | accepted h htime hcall ih =>
      obtain ⟨record, hacc⟩ := register_of_ok hcall
      rintro req (_ | ⟨_, hreq⟩)
      · exact hacc.guarded httl
      · exact (ih req hreq).accept hacc httl htime
  | rejected h htime hcall ih =>
      rw [register_of_error hcall]
      exact fun req hreq => (ih req hreq).later htime
  | purged h htime ih => exact fun req hreq => (ih req hreq).purge htime

/-- Along every history no request is accepted twice. -/
theorem History.nodup {ttl : Duration} {c : Cache Key} {t : ℕ}
    {log : List (RegisterRequest Key Signature)} (h : History ttl c t log)
    (httl : 2 * maxTimestampSkewSecs < ttl.asSecs) : log.Nodup := by
  induction h with
  | start t => exact List.nodup_nil
  | accepted h htime hcall ih =>
      obtain ⟨record, hacc⟩ := register_of_ok hcall
      exact List.nodup_cons.mpr
        ⟨fun hmem => (h.guarded httl _ hmem).not_accepted htime hacc, ih⟩
  | rejected h htime hcall ih => exact ih
  | purged h htime ih => exact ih

end Calls

end Cache

open Cache

/-- Ownership and replay safety, along every history of the cache with a `ttl` of more than twice
the skew in whole seconds: no request is accepted twice; and whatever is called next, a live
record keeps its owner, an accepted renewal moves its sequence on, a purge leaves it alone, and a
refused request changes nothing at all. -/
theorem registration_safe {Key Signature : Type} [DecidableEq Key] [Ed25519 Key Signature]
    {ttl : Duration} (httl : 2 * maxTimestampSkewSecs < ttl.asSecs) {c : Cache Key} {t : ℕ}
    {log : List (RegisterRequest Key Signature)} (h : History ttl c t log) :
    log.Nodup ∧
      (∀ (req : RegisterRequest Key Signature) (now : ℕ) (limits : RegisterLimits) (c' : Cache Key),
        (∀ out, c.register req now ttl limits = (c', .ok out) →
          ∀ name r, c.records.get? name = some r → now < r.expiresAt →
            if name = req.hostname then Renewed c' name r else Kept c' name r) ∧
        (∀ e, c.register req now ttl limits = (c', .error e) → c' = c)) ∧
      ∀ now name r, c.records.get? name = some r → now < r.expiresAt →
        Kept (c.purgeExpired now).1 name r := by
  refine ⟨h.nodup httl, fun req now limits c' => ⟨fun out hcall name r hget hlive => ?_,
    fun e => register_of_error⟩, fun now name r => get?_purgeExpired⟩
  obtain ⟨record, hacc⟩ := register_of_ok hcall
  rcases hacc.live hget hlive with ⟨hname, hget', hown, hseq⟩ | ⟨hname, hget'⟩
  · rw [if_pos hname]
    exact ⟨record, hget', hown, hseq⟩
  · rw [if_neg hname]
    exact hget'

/-- A scheme to try the cache with: the signature is the key's byte in front of the text. -/
structure SampleKey where
  byte : UInt8
  deriving DecidableEq

structure SampleSignature where
  bytes : List UInt8
  deriving DecidableEq

instance : Ed25519 SampleKey SampleSignature where
  keyBytes k := [k.byte]
  verify k text signature := decide (signature.bytes = k.byte :: text)

/-- `RegisterRequest::sign` under that scheme. -/
def RegisterRequest.signed (req : RegisterRequest SampleKey SampleSignature) :
    RegisterRequest SampleKey SampleSignature :=
  { req with signature := ⟨req.ownerKey.byte :: req.signingBytes⟩ }

@[simp] lemma RegisterRequest.verify_signed (req : RegisterRequest SampleKey SampleSignature) :
    req.signed.verify = true := by
  simp [verify, signed, Ed25519.verify, signingBytes]

/-- The address `[0]` of the topology `[8]`. -/
def sampleNaddr : Naddr := ⟨⟨[8], by simp, by simp⟩, [0], rfl⟩

def angelica : Hostname := ⟨"angelica", by decide, by decide, by simp⟩

/-- A registration of `angelica` by the key of that byte. -/
def registrationBy (owner : UInt8) (sequence timestamp : UInt64) :
    RegisterRequest SampleKey SampleSignature :=
  RegisterRequest.signed ⟨angelica, ⟨owner⟩, sampleNaddr, sequence, timestamp, 16, 1, [], ⟨[]⟩⟩

def sampleLimits : RegisterLimits := ⟨Duration.fromSecs 0, 16, 256, 4⟩

def sampleTable : SnsdTable := SnsdTable.new.setZeroRecord sampleNaddr 16 1

/-- The record that such a registration leaves behind when it is accepted at `now`. -/
def recordBy (owner : UInt8) (sequence : UInt64) (now : ℕ) (ttl : Duration) :
    HostedRecord SampleKey :=
  ⟨⟨owner⟩, sequence, now, now, now + ttl.asSecs, sampleTable⟩

lemma nodup_soleKey (r : HostedRecord SampleKey) : ([(angelica, r)].map Prod.fst).Nodup :=
  List.nodup_singleton _

/-- The cache that hosts `angelica` and nothing else. -/
def sole (r : HostedRecord SampleKey) : Cache SampleKey := ⟨⟨[(angelica, r)], nodup_soleKey r⟩⟩

section Sample

variable {c : Cache SampleKey} {r r' : HostedRecord SampleKey} {now : ℕ} {ttl : Duration}

@[simp] lemma get?_sole : (sole r).records.get? angelica = some r := by
  simp [sole, KeyedMap.get?]

lemma insertOrdered_new : (Cache.new : Cache SampleKey).records.insertOrdered angelica r =
    (sole r).records := rfl

lemma insertOrdered_sole : (sole r).records.insertOrdered angelica r' = (sole r').records := by
  simp [sole, KeyedMap.insertOrdered]

lemma purgeExpired_sole (h : r.expiresAt ≤ now) : ((sole r).purgeExpired now).1 = Cache.new := by
  simp [sole, purgeExpired, HostedRecord.isExpired, h, KeyedMap.erase, Cache.new, KeyedMap.empty]

/-- A request whose time is near passes every check that does not look at the record. -/
lemma checkRegister_registrationBy (owner : UInt8) (sequence timestamp : UInt64)
    (hnear : Nat.dist timestamp.toNat now ≤ maxTimestampSkewSecs)
    (hadd : now + ttl.asSecs < 2 ^ 64) (hroom : c.records.entries.length < 4) :
    c.checkRegister (registrationBy owner sequence timestamp) now ttl sampleLimits =
      c.checkSlot (registrationBy owner sequence timestamp) now (Duration.fromSecs 0) >>= fun _ =>
        .ok (sampleTable, now + ttl.asSecs) := by
  have hverify : (registrationBy owner sequence timestamp).verify = true :=
    RegisterRequest.verify_signed _
  have hrecords : (registrationBy owner sequence timestamp).snsdRecords = [] := rfl
  have hweight : ¬ maxWeight < (registrationBy owner sequence timestamp).zeroWeight := by
    simp [registrationBy, RegisterRequest.signed, maxWeight]
  have hskew : ¬ maxTimestampSkewSecs <
      Nat.dist (registrationBy owner sequence timestamp).timestampUnix.toNat now :=
    not_lt.mpr hnear
  have hcap : ¬ sampleLimits.maxHostedRecords ≤ c.records.entries.length := not_le.mpr hroom
  have htable : (registrationBy owner sequence timestamp).snsdTable sampleLimits =
      .ok sampleTable := rfl
  have hinterval : sampleLimits.minRenewalInterval = Duration.fromSecs 0 := rfl
  simp only [checkRegister, hverify, hrecords, hweight, hskew, hcap, hinterval, htable,
    Outcome.checkedAdd_of_lt hadd, Outcome.ok_bind, Bool.not_true, List.any_nil, decide_false,
    Bool.and_false, Bool.false_eq_true, if_false]

/-- A name that is free, or whose record has expired, is registered. -/
lemma register_of_free (owner : UInt8) (sequence timestamp : UInt64)
    (hnear : Nat.dist timestamp.toNat now ≤ maxTimestampSkewSecs)
    (hadd : now + ttl.asSecs < 2 ^ 64) (hroom : c.records.entries.length < 4)
    (hfree : ∀ r, c.records.get? angelica = some r → r.expiresAt ≤ now) :
    c.register (registrationBy owner sequence timestamp) now ttl sampleLimits =
      (⟨c.records.insertOrdered angelica (recordBy owner sequence now ttl)⟩,
        .ok (.registered (now + ttl.asSecs))) := by
  have hfresh : c.isFreshSlot (registrationBy owner sequence timestamp) now = true := by
    simp only [isFreshSlot, Option.all_eq_true, Bool.or_eq_true]
    intro r hr
    exact Or.inl (by simpa [HostedRecord.isExpired] using hfree r hr)
  have hslot : c.checkSlot (registrationBy owner sequence timestamp) now (Duration.fromSecs 0) =
      .ok () := by
    rw [checkSlot, if_pos hfresh]
    cases hget : c.records.get? (registrationBy owner sequence timestamp).hostname with
    | none => rfl
    | some r => simp [HostedRecord.isExpired, hfree r hget]
  rw [register, checkRegister_registrationBy _ _ _ hnear hadd hroom, hslot]
  simp only [Outcome.ok_bind, hfresh, if_true]
  rfl

/-- The owner renews. -/
lemma register_of_renewal (owner : UInt8) (sequence timestamp : UInt64)
    (hnear : Nat.dist timestamp.toNat now ≤ maxTimestampSkewSecs)
    (hadd : now + ttl.asSecs < 2 ^ 64) (howner : r.ownerKey = ⟨owner⟩)
    (hlive : now < r.expiresAt) (hsequence : r.sequence < sequence) (hrenewed : r.renewedAt ≤ now) :
    (sole r).register (registrationBy owner sequence timestamp) now ttl sampleLimits =
      (sole { r with
        sequence, renewedAt := now, expiresAt := now + ttl.asSecs, snsd := sampleTable },
        .ok (.renewed (now + ttl.asSecs))) := by
  have hname : (registrationBy owner sequence timestamp).hostname = angelica := rfl
  have hkey : (registrationBy owner sequence timestamp).ownerKey = ⟨owner⟩ := rfl
  have hseq : (registrationBy owner sequence timestamp).sequence = sequence := rfl
  have hnotFresh : (sole r).isFreshSlot (registrationBy owner sequence timestamp) now = false := by
    simp [isFreshSlot, hname, hkey, HostedRecord.isExpired, howner, hlive]
  have hnext : ¬ now < min (r.renewedAt + (Duration.fromSecs 0).asSecs) (2 ^ 64 - 1) :=
    not_lt.mpr (min_le_of_left_le hrenewed)
  have hslot : (sole r).checkSlot (registrationBy owner sequence timestamp) now
      (Duration.fromSecs 0) = .ok () := by
    simp only [checkSlot, hnotFresh, hname, hseq, get?_sole, Outcome.expect, Outcome.ok_bind,
      Bool.false_eq_true, if_false, UInt64.not_le.mpr hsequence, hnext]
  rw [register, checkRegister_registrationBy _ _ _ hnear hadd (by simp [sole]), hslot]
  simp only [Outcome.ok_bind, hnotFresh, Bool.false_eq_true, if_false, hname, get?_sole, hseq,
    insertOrdered_sole]

/-- A live record refuses its owner a sequence it has seen. -/
lemma register_of_staleSequence (owner : UInt8) (sequence timestamp : UInt64)
    (hnear : Nat.dist timestamp.toNat now ≤ maxTimestampSkewSecs)
    (hadd : now + ttl.asSecs < 2 ^ 64) (howner : r.ownerKey = ⟨owner⟩)
    (hlive : now < r.expiresAt) (hsequence : sequence ≤ r.sequence) :
    (sole r).register (registrationBy owner sequence timestamp) now ttl sampleLimits =
      (sole r, .error (.err (.staleSequence sequence r.sequence))) := by
  have hname : (registrationBy owner sequence timestamp).hostname = angelica := rfl
  have hkey : (registrationBy owner sequence timestamp).ownerKey = ⟨owner⟩ := rfl
  have hseq : (registrationBy owner sequence timestamp).sequence = sequence := rfl
  have hnotFresh : (sole r).isFreshSlot (registrationBy owner sequence timestamp) now = false := by
    simp [isFreshSlot, hname, hkey, HostedRecord.isExpired, howner, hlive]
  have hslot : (sole r).checkSlot (registrationBy owner sequence timestamp) now
      (Duration.fromSecs 0) = Outcome.fail (.staleSequence sequence r.sequence) := by
    simp only [checkSlot, hnotFresh, hname, hseq, get?_sole, Outcome.expect, Outcome.ok_bind,
      Bool.false_eq_true, if_false, if_pos hsequence]
  rw [register, checkRegister_registrationBy _ _ _ hnear hadd (by simp [sole]), hslot]
  rfl

/-- A live record refuses anybody else. -/
lemma register_of_other (owner : UInt8) (sequence timestamp : UInt64)
    (hnear : Nat.dist timestamp.toNat now ≤ maxTimestampSkewSecs)
    (hadd : now + ttl.asSecs < 2 ^ 64) (howner : r.ownerKey ≠ ⟨owner⟩)
    (hlive : now < r.expiresAt) :
    (sole r).register (registrationBy owner sequence timestamp) now ttl sampleLimits =
      (sole r, .error (.err .ownedByOther)) := by
  have hname : (registrationBy owner sequence timestamp).hostname = angelica := rfl
  have hkey : (registrationBy owner sequence timestamp).ownerKey = ⟨owner⟩ := rfl
  have hslot : (sole r).checkSlot (registrationBy owner sequence timestamp) now
      (Duration.fromSecs 0) = Outcome.fail .ownedByOther := by
    simp [checkSlot, isFreshSlot, hname, hkey, HostedRecord.isExpired, howner, hlive]
  rw [register, checkRegister_registrationBy _ _ _ hnear hadd (by simp [sole]), hslot]
  rfl

/-- Whatever is hosted, a request whose time is far is refused. -/
lemma register_of_staleTimestamp (owner : UInt8) (sequence timestamp : UInt64)
    (hfar : maxTimestampSkewSecs < Nat.dist timestamp.toNat now) :
    c.register (registrationBy owner sequence timestamp) now ttl sampleLimits =
      (c, .error (.err (.staleTimestamp timestamp now))) := by
  have hverify : (registrationBy owner sequence timestamp).verify = true :=
    RegisterRequest.verify_signed _
  have hrecords : (registrationBy owner sequence timestamp).snsdRecords = [] := rfl
  have hweight : ¬ maxWeight < (registrationBy owner sequence timestamp).zeroWeight := by
    simp [registrationBy, RegisterRequest.signed, maxWeight]
  have hskew : maxTimestampSkewSecs <
      Nat.dist (registrationBy owner sequence timestamp).timestampUnix.toNat now := hfar
  have hcheck : c.checkRegister (registrationBy owner sequence timestamp) now ttl sampleLimits =
      Outcome.fail (.staleTimestamp timestamp now) := by
    simp only [checkRegister, hverify, hrecords, hweight, hskew, Bool.not_true, List.any_nil,
      Bool.false_eq_true, if_false, if_true]
    rfl
  rw [register, hcheck]
  rfl

end Sample

/-- The whole life of a name with a `ttl` of 7201 seconds: registered by owner 1, the same request
refused again, owner 2 refused, renewed, expired, the first request refused as too old, taken over
by owner 2, expired and purged, and registered by owner 1 once more. -/
lemma history_angelica : History (Duration.fromSecs 7201)
    (sole (recordBy 1 1 26403 (Duration.fromSecs 7201))) 26403
    [registrationBy 1 1 26403, registrationBy 2 1 19202, registrationBy 1 2 12000,
      registrationBy 1 1 13600] := by
  have hfirst := History.accepted (History.start 0) (Nat.zero_le 10000)
    (@register_of_free Cache.new 10000 (Duration.fromSecs 7201) 1 1 13600 (by decide) (by decide)
      (by decide) (by simp [Cache.new]))
  rw [insertOrdered_new] at hfirst
  have hagain := hfirst.rejected (show 10000 ≤ 10001 by decide)
    (register_of_staleSequence 1 1 13600 (by decide)
      (by decide) rfl (by decide) (by decide))
  have hother := hagain.rejected (show 10001 ≤ 10002 by decide)
    (register_of_other 2 1 10002 (by decide) (by decide)
      (by decide) (by decide))
  have hrenewed := hother.accepted (show 10002 ≤ 12000 by decide)
    (register_of_renewal 1 2 12000 (by decide)
      (by decide) rfl (by decide) (by decide) (by decide))
  have hold := hrenewed.rejected (show 12000 ≤ 19201 by decide)
    (register_of_staleTimestamp 1 1 13600 (by decide))
  have htaken := hold.accepted (show 19201 ≤ 19202 by decide)
    (register_of_free 2 1 19202 (by decide) (by decide)
      (by decide) (by simp [recordBy, Duration.fromSecs, Duration.asSecs]))
  rw [insertOrdered_sole] at htaken
  have hpurged := htaken.purged (show 19202 ≤ 26403 by decide)
  rw [purgeExpired_sole (by decide)] at hpurged
  exact hpurged.accepted le_rfl (register_of_free 1 1 26403 (by decide) (by decide) (by decide)
    (by simp [Cache.new]))

theorem registration_safe_angelica :
    [registrationBy 1 1 26403, registrationBy 2 1 19202, registrationBy 1 2 12000,
      registrationBy 1 1 13600].Nodup ∧
    (∀ (req : RegisterRequest SampleKey SampleSignature) (now : ℕ) (limits : RegisterLimits)
        (c' : Cache SampleKey),
      (∀ out, (sole (recordBy 1 1 26403 (Duration.fromSecs 7201))).register req now
          (Duration.fromSecs 7201) limits = (c', .ok out) →
        ∀ name r, (sole (recordBy 1 1 26403 (Duration.fromSecs 7201))).records.get? name = some r →
          now < r.expiresAt → if name = req.hostname then Renewed c' name r else Kept c' name r) ∧
      ∀ e, (sole (recordBy 1 1 26403 (Duration.fromSecs 7201))).register req now
          (Duration.fromSecs 7201) limits = (c', .error e) →
        c' = sole (recordBy 1 1 26403 (Duration.fromSecs 7201))) ∧
    Kept ((sole (recordBy 1 1 26403 (Duration.fromSecs 7201))).purgeExpired 30000).1 angelica
      (recordBy 1 1 26403 (Duration.fromSecs 7201)) := by
  obtain ⟨hnodup, hcalls, hpurge⟩ := registration_safe (by decide) history_angelica
  exact ⟨hnodup, hcalls, hpurge 30000 angelica _ get?_sole (by decide)⟩

/-- A `ttl` one nanosecond above twice the skew is not enough: the record is gone after 7200
seconds, just when the request is still fresh. -/
theorem not_registration_safe_subsecond :
    ∃ (ttl : Duration) (c : Cache SampleKey) (t : ℕ)
      (log : List (RegisterRequest SampleKey SampleSignature)),
      Duration.fromSecs (2 * maxTimestampSkewSecs) < ttl ∧ History ttl c t log ∧ ¬ log.Nodup := by
  have hfirst := History.accepted (History.start 0) (Nat.zero_le 10000)
    (@register_of_free Cache.new 10000 ⟨7200, 1, by decide⟩ 1 1 13600 (by decide) (by decide)
      (by decide) (by simp [Cache.new]))
  rw [insertOrdered_new] at hfirst
  have hsecond := hfirst.accepted (show 10000 ≤ 17200 by decide)
    (register_of_free 1 1 13600 (by decide) (by decide)
      (by decide) (by simp [recordBy, Duration.asSecs]))
  exact ⟨_, _, _, _, by decide, hsecond, by simp⟩

end Netsukuku
