import Mathlib
import Netsukuku.Core.Encoding
import Netsukuku.Andna.Record
import Netsukuku.PeerServices.OriginAuth

/-!
# Signed bytes stand for one request

A signature covers bytes.  Were the bytes of two requests the same, the signature of one could be
put on the other.  Every list and every name in them stands behind its length, and the two kinds of
target behind a tag, so that they can be read back.

* `readableOn_encodeTarget` — a target, whatever follows it.
* `signingBytes_eq` — the bytes of a registration are its own.
-/

namespace Netsukuku

/-- The number of positions fits its prefix. -/
def SnsdTarget.Sized : SnsdTarget → Prop
  | .address naddr => naddr.positions.length < 2 ^ 32
  | .alias _ => True

/-- An address: how many levels, their sizes, the positions. -/
lemma readableOn_naddr :
    ReadableOn {naddr : Naddr | naddr.positions.length < 2 ^ 32} fun naddr =>
      leBytes 4 naddr.positions.length ++
        ((naddr.topology.gsizes.flatMap fun g => leBytes 4 g.toNat) ++
          naddr.positions.flatMap fun p => leBytes 4 p.toNat) := by
  refine (readableOn_leBytes 4).seq (fun naddr : Naddr => naddr.positions.length) (fun naddr h => h) fun n => ?_
  refine (readableOn_words n).seq (fun naddr : Naddr => naddr.topology.gsizes)
    (fun naddr h => naddr.length_positions.symm.trans h.2) fun gsizes => ?_
  refine (readableOn_words n).comp (fun naddr h => h.1.2) ?_
  rintro ⟨⟨sizes, _, _⟩, positions, _⟩ h ⟨⟨sizes', _, _⟩, positions', _⟩ h' heq
  obtain rfl : sizes = sizes' := h.2.trans h'.2.symm
  obtain rfl : positions = positions' := heq
  rfl

/-- A name of the naming service behind its length; it is always short enough. -/
lemma readableOn_hostname :
    ReadableOn (Set.univ : Set Hostname) fun h =>
      leBytes 4 h.name.utf8ByteSize ++ h.name.toUTF8.toList :=
  readableOn_name.comp (fun h _ => h.valid.2.1.trans_lt (by decide)) Hostname.name_injective.injOn

/-- **A target can be read off**, whatever follows it. -/
theorem readableOn_encodeTarget : ReadableOn {t : SnsdTarget | t.Sized} encodeTarget := by
  intro t ht t' ht' x y heq
  cases t with
  | address naddr =>
      cases t' with
      | address naddr' =>
          simp only [encodeTarget, List.cons_append, List.cons.injEq, List.append_assoc,
            true_and] at heq
          obtain ⟨rfl, hrest⟩ := readableOn_naddr naddr ht naddr' ht' x y
            (by simpa only [List.append_assoc] using heq)
          exact ⟨rfl, hrest⟩
      | «alias» hostname' => simp [encodeTarget] at heq
  | «alias» hostname =>
      cases t' with
      | address naddr' => simp [encodeTarget] at heq
      | «alias» hostname' =>
          simp only [encodeTarget, List.cons_append, List.cons.injEq, true_and] at heq
          obtain ⟨rfl, hrest⟩ := readableOn_hostname hostname trivial hostname' trivial x y heq
          exact ⟨rfl, hrest⟩

/-- A record of a service. -/
lemma readableOn_record :
    ReadableOn {r : SnsdRecord | r.target.Sized} fun r =>
      (leBytes 2 r.service.toNat ++ [r.priority, r.weight]) ++ encodeTarget r.target := by
  have hhead : ReadableOn (Set.univ : Set (UInt16 × UInt8 × UInt8)) fun h =>
      leBytes 2 h.1.toNat ++ [h.2.1, h.2.2] := by
    refine readableOn_of_length (w := 4) (fun h _ => by simp) ?_
    rintro ⟨service, priority, weight⟩ - ⟨service', priority', weight'⟩ - heq
    obtain ⟨hservice, hrest⟩ := List.append_inj heq (by simp)
    have hnum := leBytes_injOn 2 service.toNat_lt service'.toNat_lt hservice
    simp only [List.cons.injEq, and_true] at hrest
    rw [UInt16.toNat_inj.mp hnum, hrest.1, hrest.2]
  refine hhead.seq (fun r : SnsdRecord => (r.service, r.priority, r.weight)) (fun r _ => trivial)
    fun head => ?_
  refine readableOn_encodeTarget.comp (fun r hr => hr.1) ?_
  rintro ⟨service, priority, weight, target⟩ hr ⟨service', priority', weight', target'⟩ hr' heq
  have hsame := hr.2.trans hr'.2.symm
  simp only [Prod.mk.injEq] at hsame
  obtain ⟨rfl, rfl, rfl⟩ := hsame
  obtain rfl : target = target' := heq
  rfl

namespace RegisterRequest

variable {Key Signature : Type}

/-- Every length of the request fits its prefix. -/
structure Sized (req : RegisterRequest Key Signature) : Prop where
  ownerNaddr : req.ownerNaddr.positions.length < 2 ^ 32
  snsdRecords : req.snsdRecords.length < 2 ^ 32
  targets : ∀ r ∈ req.snsdRecords, r.target.Sized

variable [Ed25519 Key Signature]

/-- **The bytes of a registration are its own**: they fix every field but the signature. -/
theorem signingBytes_eq
    (hlen : ∀ k : Key, (Ed25519.keyBytes Signature k).length = 32)
    (hinj : Function.Injective (Ed25519.keyBytes Signature : Key → List UInt8))
    {a b : RegisterRequest Key Signature} (ha : a.Sized) (hb : b.Sized)
    (heq : a.signingBytes = b.signingBytes) : a = { b with signature := a.signature } := by
  simp only [signingBytes, List.append_assoc] at heq
  obtain ⟨hhostname, heq⟩ := readableOn_hostname a.hostname trivial b.hostname trivial _ _
    (by simpa only [List.append_assoc] using heq)
  have hkeys : ReadableOn Set.univ (Ed25519.keyBytes Signature : Key → List UInt8) :=
    readableOn_of_length (fun k _ => hlen k) hinj.injOn
  obtain ⟨hkey, heq⟩ := hkeys a.ownerKey trivial b.ownerKey trivial _ _ heq
  obtain ⟨hnaddr, heq⟩ := readableOn_encodeTarget (.address a.ownerNaddr) ha.ownerNaddr
    (.address b.ownerNaddr) hb.ownerNaddr _ _ heq
  obtain ⟨hsequence, heq⟩ := readableOn_leBytes 8 _ a.sequence.toNat_lt _ b.sequence.toNat_lt
    _ _ heq
  obtain ⟨htimestamp, heq⟩ := readableOn_leBytes 8 _ a.timestampUnix.toNat_lt _
    b.timestampUnix.toNat_lt _ _ heq
  simp only [List.cons_append, List.nil_append, List.cons.injEq] at heq
  obtain ⟨hpriority, hweight, heq⟩ := heq
  obtain ⟨hlength, heq⟩ := readableOn_leBytes 4 _ ha.snsdRecords _ hb.snsdRecords _ _ heq
  have hrecords : a.snsdRecords = b.snsdRecords :=
    (readableOn_record.flatMap b.snsdRecords.length).injOn ⟨hlength, ha.targets⟩
      ⟨rfl, hb.targets⟩
      (by simpa only [List.append_assoc, List.cons_append, List.nil_append] using heq)
  obtain ⟨hostname, ownerKey, ownerNaddr, sequence, timestampUnix, zeroPriority, zeroWeight,
    snsdRecords, signature⟩ := a
  simp only [SnsdTarget.address.injEq, UInt64.toNat_inj] at hnaddr hsequence htimestamp
  simp only at hhostname hkey hnaddr hsequence htimestamp hpriority hweight hrecords
  subst hhostname hkey hnaddr hsequence htimestamp hpriority hweight hrecords
  rfl

end RegisterRequest

/-- **Signed encodings are unambiguous.**  Two registrations with the same bytes under the
signature differ in nothing but the signature, and two requests to a service with the same bytes
are the same request, from the same position, to the same service. -/
theorem signed_bytes_unambiguous {Key Signature : Type} [Ed25519 Key Signature]
    (hlen : ∀ k : Key, (Ed25519.keyBytes Signature k).length = 32)
    (hinj : Function.Injective (Ed25519.keyBytes Signature : Key → List UInt8)) :
    (∀ a b : RegisterRequest Key Signature, a.Sized → b.Sized →
      a.signingBytes = b.signingBytes → a = { b with signature := a.signature }) ∧
    ∀ a b : OriginRequest, a.Sized → b.Sized →
      originSigningPayload a.clientTuple a.pId a.request =
        originSigningPayload b.clientTuple b.pId b.request → a = b :=
  ⟨fun _ _ ha hb => RegisterRequest.signingBytes_eq hlen hinj ha hb,
    fun _ _ ha hb => readableOn_originSigningPayload.injOn ha hb⟩

/-- A public key as it is written: 32 bytes. -/
structure PublicKey where
  bytes : List UInt8
  length_bytes : bytes.length = 32

instance : Ed25519 PublicKey Unit where
  keyBytes := PublicKey.bytes
  verify _ _ _ := true

lemma registrationWith_isHostname : IsHostname "a" := ⟨by decide, by decide, by simp⟩

lemma registrationWith_ne_nil : ([8] : List UInt32) ≠ [] := by simp

lemma registrationWith_pos : ∀ g ∈ ([8] : List UInt32), 0 < g.toNat := by simp

lemma registrationWith_length : [(0 : UInt32)].length = [(8 : UInt32)].length := rfl

/-- A registration of `a` at the address `[0]`, with these records. -/
def registrationWith (records : List SnsdRecord) : RegisterRequest PublicKey Unit where
  hostname := ⟨"a", registrationWith_isHostname⟩
  ownerKey := ⟨List.replicate 32 7, List.length_replicate⟩
  ownerNaddr :=
    ⟨⟨[8], registrationWith_ne_nil, registrationWith_pos⟩, [0], registrationWith_length⟩
  sequence := 1
  timestampUnix := 13600
  zeroPriority := 16
  zeroWeight := 1
  snsdRecords := records
  signature := ()

/-- One record more, or another service, and the bytes differ. -/
theorem signed_bytes_unambiguous_records :
    (registrationWith []).signingBytes ≠
        (registrationWith [⟨80, 1, 1, .alias (registrationWith []).hostname⟩]).signingBytes ∧
      originSigningPayload [1, 2] ⟨5⟩ ⟨"Lookup", [3]⟩ ≠
        originSigningPayload [1, 2] ⟨6⟩ ⟨"Lookup", [3]⟩ := by
  have hinj : Function.Injective (Ed25519.keyBytes Unit : PublicKey → List UInt8) := by
    rintro ⟨a, ha⟩ ⟨b, hb⟩ h
    obtain rfl : a = b := h
    rfl
  obtain ⟨hregister, horigin⟩ := signed_bytes_unambiguous PublicKey.length_bytes hinj
  constructor
  · intro heq
    have hsame := hregister _ _ ⟨by decide, by decide, by simp [registrationWith]⟩
      ⟨by decide, by decide, by simp [registrationWith, SnsdTarget.Sized]⟩ heq
    exact absurd (congrArg RegisterRequest.snsdRecords hsame) (by simp [registrationWith])
  · intro heq
    have hsame := horigin ⟨[1, 2], ⟨5⟩, ⟨"Lookup", [3]⟩⟩ ⟨[1, 2], ⟨6⟩, ⟨"Lookup", [3]⟩⟩
      ⟨by decide, by decide, by decide⟩ ⟨by decide, by decide, by decide⟩ heq
    exact absurd hsame (by decide)

end Netsukuku
