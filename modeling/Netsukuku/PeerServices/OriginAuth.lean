import Mathlib
import Netsukuku.Core.Encoding
import Netsukuku.PeerServices.Actor
import Netsukuku.Rpc.Envelope

/-!
# What the originator of a request signs

The originator of a call signs where it claims to be, the service it calls and what it asks.  The
positions, the type of the request and its payload stand behind their lengths.

* `originSigningPayload` — the bytes signed.
* `readableOn_originSigningPayload` — within the lengths the prefixes hold, the bytes are those of
  one triple only.
-/

namespace Netsukuku

open Rpc

/-- What is signed: the claimed position, the service, the request. -/
structure OriginRequest where
  clientTuple : List UInt32
  pId : ServiceId
  request : TypedValue
  deriving DecidableEq

namespace OriginRequest

/-- Every length fits its prefix. -/
structure Sized (r : OriginRequest) : Prop where
  clientTuple : r.clientTuple.length < 2 ^ 32
  typeTag : r.request.typeTag.utf8ByteSize < 2 ^ 32
  payload : r.request.payload.length < 2 ^ 32

end OriginRequest

/-- `origin_signing_payload`. -/
def originSigningPayload (clientTuple : List UInt32) (pId : ServiceId) (request : TypedValue) :
    List UInt8 :=
  leBytes 4 clientTuple.length ++ (clientTuple.flatMap fun pos => leBytes 4 pos.toNat) ++
    leBytes 2 pId.get.toNat ++
    leBytes 4 request.typeTag.utf8ByteSize ++ request.typeTag.toUTF8.toList ++
    leBytes 4 request.payload.length ++ request.payload

/-- The positions behind their number. -/
lemma readableOn_positions :
    ReadableOn {l : List UInt32 | l.length < 2 ^ 32}
      fun l => leBytes 4 l.length ++ l.flatMap fun pos => leBytes 4 pos.toNat := by
  refine (readableOn_leBytes 4).seq List.length (fun l hl => hl) fun n => ?_
  exact (readableOn_words n).mono fun l hl => hl.2

/-- A request: its type and its payload, each behind its length. -/
lemma readableOn_typedValue :
    ReadableOn {v : TypedValue | v.typeTag.utf8ByteSize < 2 ^ 32 ∧ v.payload.length < 2 ^ 32}
      fun v => (leBytes 4 v.typeTag.utf8ByteSize ++ v.typeTag.toUTF8.toList) ++
        (leBytes 4 v.payload.length ++ v.payload) := by
  refine readableOn_name.seq TypedValue.typeTag (fun v hv => hv.1) fun tag => ?_
  refine (readableOn_leBytes 4).seq (fun v : TypedValue => v.payload.length) (fun v hv => hv.1.2) fun n => ?_
  refine (readableOn_text n).comp (fun v hv => hv.2) ?_
  rintro ⟨typeTag, payload⟩ hv ⟨typeTag', payload'⟩ hv' heq
  have htag : typeTag = typeTag' := hv.1.2.trans hv'.1.2.symm
  have hpayload : payload = payload' := heq
  rw [htag, hpayload]

/-- **The bytes signed are those of one triple.** -/
theorem readableOn_originSigningPayload :
    ReadableOn {r : OriginRequest | r.Sized}
      fun r => originSigningPayload r.clientTuple r.pId r.request := by
  have hservice : ReadableOn (Set.univ : Set ServiceId) fun p => leBytes 2 p.get.toNat :=
    (readableOn_leBytes 2).comp (fun p _ => p.get.toNat_lt) fun p _ p' _ heq => by
      cases p
      cases p'
      rw [ServiceId.mk.injEq]
      exact UInt16.toNat_inj.mp heq
  have hsigned : ReadableOn {r : OriginRequest | r.Sized} fun r =>
      (leBytes 4 r.clientTuple.length ++ r.clientTuple.flatMap fun pos => leBytes 4 pos.toNat) ++
        (leBytes 2 r.pId.get.toNat ++
          ((leBytes 4 r.request.typeTag.utf8ByteSize ++ r.request.typeTag.toUTF8.toList) ++
            (leBytes 4 r.request.payload.length ++ r.request.payload))) := by
    refine readableOn_positions.seq OriginRequest.clientTuple (fun r hr => hr.clientTuple) fun tuple => ?_
    refine hservice.seq OriginRequest.pId (fun r _ => Set.mem_univ r.pId) fun pId => ?_
    refine readableOn_typedValue.comp (fun r hr => ⟨hr.1.1.typeTag, hr.1.1.payload⟩) ?_
    rintro ⟨clientTuple, p, request⟩ hr ⟨clientTuple', p', request'⟩ hr' heq
    have htuple : clientTuple = clientTuple' := hr.1.2.trans hr'.1.2.symm
    have hp : p = p' := hr.2.trans hr'.2.symm
    have hrequest : request = request' := heq
    rw [htuple, hp, hrequest]
  intro r hr r' hr' x y heq
  refine hsigned r hr r' hr' x y ?_
  simpa only [originSigningPayload, List.append_assoc] using heq

end Netsukuku
