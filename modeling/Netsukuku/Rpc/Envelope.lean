import Mathlib

/-!
# Envelopes

What crosses a connection, one envelope a frame.  The method calls `M` and the payloads `P` of
replies are opaque to the transport.  `encoded_len` belongs to the encoding, which the transport
does not look into: it is a parameter wherever a length matters.

* `Envelope.checkVersion` — whether the peer's version can be decoded.
* `Envelope.replyWanted` — the correlation id a reply has to carry, if one is wanted.
* `Envelope.fitFrame` — a response too large for a frame gives way to an error.
-/

namespace Netsukuku.Rpc

structure ProtocolVersion where
  major : UInt32
  minor : UInt32
  deriving DecidableEq

/-- `ProtocolVersion::CURRENT`. -/
def ProtocolVersion.current : ProtocolVersion := ⟨1, 0⟩

/-- `is_compatible_with`. -/
def ProtocolVersion.isCompatibleWith (self other : ProtocolVersion) : Bool :=
  self.major = other.major

structure TypedValue where
  typeTag : String
  payload : List UInt8
  deriving DecidableEq

structure CallerContext where
  sourceId : Option TypedValue
  srcNic : Option TypedValue
  deriving DecidableEq

/-- The part of `ErrorDomain` the transport itself uses; the other domains are the handlers'. -/
inductive ErrorDomain where
  | deserialize
  | other (code : Int32)
  deriving DecidableEq

structure RemoteError where
  domain : ErrorDomain
  message : String
  deriving DecidableEq

/-- The sender's signature, which the transport carries along. -/
structure Auth where
  signerKey : List UInt8
  sequence : UInt64
  signature : List UInt8
  deriving DecidableEq

structure Request (M : Type) where
  correlationId : UInt64
  caller : Option CallerContext
  unicastId : Option TypedValue
  waitReply : Bool
  call : Option M
  deriving DecidableEq

/-- `response::Outcome`. -/
inductive ResponseOutcome (P : Type) where
  | payload (payload : P)
  | error (error : RemoteError)
  deriving DecidableEq

structure Response (P : Type) where
  correlationId : UInt64
  outcome : Option (ResponseOutcome P)
  deriving DecidableEq

/-- `envelope::Body`; the two kinds of broadcast packet never cross a connection and are told apart
from the rest only. -/
inductive Body (M P : Type) where
  | request (request : Request M)
  | response (response : Response P)
  | broadcastRequest
  | broadcastAck
  deriving DecidableEq

structure Envelope (M P : Type) where
  version : Option ProtocolVersion
  body : Option (Body M P)
  auth : Option Auth
  deriving DecidableEq

namespace Envelope

variable {M P : Type}

/-- `Envelope::request`, with the signature `with_auth` attaches. -/
def request (correlationId : UInt64) (caller : CallerContext) (unicastId : TypedValue)
    (waitReply : Bool) (call : M) (auth : Option Auth) : Envelope M P :=
  ⟨some .current, some (.request ⟨correlationId, some caller, some unicastId, waitReply, some call⟩),
    auth⟩

/-- `Envelope::response_ok`. -/
def responseOk (version : ProtocolVersion) (correlationId : UInt64) (payload : P) : Envelope M P :=
  ⟨some version, some (.response ⟨correlationId, some (.payload payload)⟩), none⟩

/-- `Envelope::response_err`. -/
def responseErr (version : ProtocolVersion) (correlationId : UInt64) (error : RemoteError) :
    Envelope M P :=
  ⟨some version, some (.response ⟨correlationId, some (.error error)⟩), none⟩

/-- `as_request`. -/
def asRequest (e : Envelope M P) : Option (Request M) :=
  match e.body with
  | some (.request r) => some r
  | _ => none

/-- `check_version`: a version that is missing is not a mismatch. -/
def checkVersion (e : Envelope M P) : Bool :=
  match e.version with
  | some theirs => ProtocolVersion.current.isCompatibleWith theirs
  | none => true

/-- `reply_wanted`. -/
def replyWanted (e : Envelope M P) : Option UInt64 :=
  match e.body with
  | some (.request r) => if r.waitReply then some r.correlationId else none
  | _ => none

/-- `malformed`. -/
def malformed (message : String) : RemoteError := ⟨.deserialize, message⟩

/-- `fit_frame`. -/
def fitFrame (encodedLen : Envelope M P → ℕ) (maxFrameLength : ℕ) (e : Envelope M P) :
    Envelope M P :=
  if encodedLen e ≤ maxFrameLength then e
  else
    match e.body with
    | some (.response r) =>
        responseErr .current r.correlationId (malformed "response exceeds the maximum frame size")
    | _ => e

/-- A response with the correlation id `id`. -/
def Replies (e : Envelope M P) (id : UInt64) : Prop :=
  ∃ outcome, e.body = some (.response ⟨id, outcome⟩)

lemma replies_responseOk (version : ProtocolVersion) (id : UInt64) (payload : P) :
    (responseOk version id payload : Envelope M P).Replies id := ⟨_, rfl⟩

lemma replies_responseErr (version : ProtocolVersion) (id : UInt64) (error : RemoteError) :
    (responseErr version id error : Envelope M P).Replies id := ⟨_, rfl⟩

/-- What is sent in place of a response has its correlation id. -/
lemma Replies.fitFrame {e : Envelope M P} {id : UInt64} (h : e.Replies id)
    (encodedLen : Envelope M P → ℕ) (maxFrameLength : ℕ) :
    (e.fitFrame encodedLen maxFrameLength).Replies id := by
  obtain ⟨outcome, hbody⟩ := h
  unfold Envelope.fitFrame
  split_ifs with hfits
  · exact ⟨outcome, hbody⟩
  · rw [hbody]
    exact replies_responseErr _ _ _

lemma replyWanted_eq_some {e : Envelope M P} {id : UInt64} (h : e.replyWanted = some id) :
    ∃ r, e.asRequest = some r ∧ r.waitReply = true ∧ r.correlationId = id := by
  unfold replyWanted at h
  split at h
  · next r hbody =>
      split_ifs at h with hwait
      exact ⟨r, by rw [asRequest, hbody], hwait, Option.some.inj h⟩
  · cases h

end Envelope

end Netsukuku.Rpc
