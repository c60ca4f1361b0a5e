import TightbeamExt.Base.Der
import TightbeamExt.Ws.Small

/-!
# Work envelopes

A client that submits work to a cluster wraps its frame, octet by octet, in an envelope with the
servlet it is for, and the envelope in a transport frame; the answer is a frame with a status and
a payload.  The envelope is written by hand, the lengths apart from the octets; it is compared
here with the documented grammar, read element by element.

The encoding of a URN and the numbers of the statuses are the library's, and parameters.

## Main definitions

* `WorkRequestBody`, `WorkRequestEnvelope.intoTransportFrame` — the envelope as it is written.
* `readWork` — the grammar of the envelope.
* `WorkReply`, `WorkReply.served`, `WorkReply.servedDer` — the answer.

## Main results

* `readWork_envelope` — the envelope reads as it was made.
* `WorkReply.tryFrom_eq_ok` — a reply is read in full.
* `work_envelope` — **work envelopes carry exactly the servlet and the frame**, and answers are
  served only with the status `Ok`.
-/

namespace TightbeamExt
namespace Ws

open Asn (Octets)
open Der (Element EncodeValue element)

/-! ### The work plane -/

/-- `TransitStatus`: the canonical statuses. -/
inductive TransitStatus
  /-- `Ok`. -/
  | ok
  /-- `Cancelled`. -/
  | cancelled
  /-- `Unknown`. -/
  | unknown
  /-- `InvalidArgument`. -/
  | invalidArgument
  /-- `DeadlineExceeded`. -/
  | deadlineExceeded
  /-- `NotFound`. -/
  | notFound
  /-- `AlreadyExists`. -/
  | alreadyExists
  /-- `PermissionDenied`. -/
  | permissionDenied
  /-- `ResourceExhausted`. -/
  | resourceExhausted
  /-- `FailedPrecondition`. -/
  | failedPrecondition
  /-- `Aborted`. -/
  | aborted
  /-- `OutOfRange`. -/
  | outOfRange
  /-- `Unimplemented`. -/
  | unimplemented
  /-- `Internal`. -/
  | internal
  /-- `Unavailable`. -/
  | unavailable
  /-- `DataLoss`. -/
  | dataLoss
  /-- `Unauthenticated`. -/
  | unauthenticated
  deriving DecidableEq, Repr

/-- What the library fails with, the errors of the work plane included. -/
inductive WorkError
  /-- An error of the frame layer. -/
  | tightBeam (e : TightBeamError)
  /-- An error of the DER layer. -/
  | der (fault : Der.Fault)
  /-- `WorkRefused`. -/
  | workRefused (status : TransitStatus)
  /-- `MissingResponse`. -/
  | missingResponse
  deriving DecidableEq, Repr

/-- What the library brings to the work plane; `υ` are the URNs. -/
structure WorkPlane (υ : Type) where
  /-- The largest length. -/
  limit : Der.Limit
  /-- The text of a URN, as UTF-8. -/
  urnText : υ → Octets
  /-- A URN from its text. -/
  parseUrn : Octets → Option υ
  /-- The status an `ENUMERATED` value stands for. -/
  statusOf : Octets → Option TransitStatus

namespace WorkPlane

variable {υ : Type} (W : WorkPlane υ)

/-- A URN is read back from its text. -/
def ReadsUrns : Prop := ∀ urn, W.parseUrn (W.urnText urn) = some urn

/-- `Urn`: its encoder. -/
def urn (urn : υ) : Except Der.Fault EncodeValue := EncodeValue.octets W.limit 0x0C (W.urnText urn)

/-- `OctetStringRef::new`. -/
def octetStringRef (octets : Octets) : Except Der.Fault EncodeValue :=
  EncodeValue.octets W.limit 0x04 octets

end WorkPlane

/-! ### The envelope -/

/-- `WorkRequestBody`. -/
structure WorkRequestBody (υ : Type) where
  /-- The servlet. -/
  servletType : υ
  /-- The caller's frame, encoded. -/
  payload : Octets

/-- `WorkRequestEnvelope`. -/
structure WorkRequestEnvelope (υ : Type) where
  /-- The servlet. -/
  servletType : υ
  /-- The caller's frame, encoded. -/
  workDer : Octets
  /-- The identifier of the caller's frame. -/
  correlationId : Octets

namespace WorkRequestBody

variable {υ : Type} (W : WorkPlane υ) (body : WorkRequestBody υ)

/-- `value_len`. -/
def valueLen : Except Der.Fault ℕ := do
  let payload ← W.octetStringRef body.payload
  let servletType ← W.urn body.servletType
  Der.addLength W.limit (← servletType.encodedLen W.limit) (← payload.encodedLen W.limit)

/-- `encode_value`. -/
def encodeValue : Except Der.Fault Octets := do
  let payload ← W.octetStringRef body.payload
  let servletType ← W.urn body.servletType
  .ok ((← servletType.encode) ++ (← payload.encode))

/-- As a value to encode. -/
def encoder : EncodeValue := ⟨0x30, body.valueLen W, body.encodeValue W⟩

/-- The two elements of the body. -/
def elements : Octets :=
  element 0x0C (W.urnText body.servletType) ++ element 0x04 body.payload

variable {W} {body}

/-- **The body announces what it writes.** -/
theorem encodes : (body.encoder W).Encodes W.limit (body.elements W) where
  fits hfits := by
    rw [elements, List.length_append] at hfits
    -- where the body fits, so does each element, and what it holds
    have hfront : (element 0x0C (W.urnText body.servletType)).length ≤ W.limit.max := by omega
    have hback : (element 0x04 body.payload).length ≤ W.limit.max := by omega
    have htext : (W.urnText body.servletType).length ≤ W.limit.max := by
      rw [Der.length_element] at hfront
      omega
    have hpayload : body.payload.length ≤ W.limit.max := by
      rw [Der.length_element] at hback
      omega
    have hu : W.urn body.servletType = .ok _ := EncodeValue.octets_eq_ok.2 ⟨rfl, htext⟩
    have hp : W.octetStringRef body.payload = .ok _ := EncodeValue.octets_eq_ok.2 ⟨rfl, hpayload⟩
    have hencodesU := @EncodeValue.octets_encodes W.limit 0x0C _ htext
    have hencodesP := @EncodeValue.octets_encodes W.limit 0x04 _ hpayload
    constructor
    · show body.valueLen W = _
      rw [valueLen, bind_eq_of_ok hp, bind_eq_of_ok hu,
        bind_eq_of_ok (hencodesU.encodedLen_eq_ok.2 ⟨rfl, hfront⟩),
        bind_eq_of_ok (hencodesP.encodedLen_eq_ok.2 ⟨rfl, hback⟩)]
      rw [elements, List.length_append]
      exact EncodeValue.addLength_eq_ok.2 ⟨rfl, hfits⟩
    · show body.encodeValue W = _
      rw [encodeValue, bind_eq_of_ok hp, bind_eq_of_ok hu, bind_eq_of_ok (hencodesU.encode htext),
        bind_eq_of_ok (hencodesP.encode hpayload)]
      rfl
  announced := by
    intro n hn
    -- both elements were announced first, so they fit
    obtain ⟨payload, hp, hn⟩ := bind_ok (show body.valueLen W = _ from hn)
    obtain ⟨servletType, hu, hn⟩ := bind_ok hn
    obtain ⟨front, hfront, hn⟩ := bind_ok hn
    obtain ⟨back, hback, hn⟩ := bind_ok hn
    obtain ⟨rfl, hpayload⟩ := EncodeValue.octets_eq_ok.1 hp
    obtain ⟨rfl, htext⟩ := EncodeValue.octets_eq_ok.1 hu
    obtain ⟨rfl, -⟩ := (EncodeValue.octets_encodes htext).encodedLen_eq_ok.1 hfront
    obtain ⟨rfl, -⟩ := (EncodeValue.octets_encodes hpayload).encodedLen_eq_ok.1 hback
    rw [elements, List.length_append]
    exact EncodeValue.addLength_eq_ok.1 hn

end WorkRequestBody

namespace WorkRequestEnvelope

variable {υ : Type} (W : WorkPlane υ) (L : Library)

/-- `from_encoded`. -/
def fromEncoded (servletType : υ) (workDer : Octets) (work : Frame) : WorkRequestEnvelope υ :=
  ⟨servletType, workDer, work.metadata.id⟩

/-- `new`. -/
def new (servletType : υ) (work : Frame) : Except TightBeamError (WorkRequestEnvelope υ) := do
  .ok (fromEncoded servletType (← L.toDer work) work)

/-- The message of the transport frame: the body under the tag of `ClusterRequest::Work`. -/
def message (envelope : WorkRequestEnvelope υ) : Except Der.Fault Octets :=
  let body : WorkRequestBody υ := ⟨envelope.servletType, envelope.workDer⟩
  ((body.encoder W).explicit W.limit 2).toDer W.limit

/-- `into_transport_frame`. -/
def intoTransportFrame (envelope : WorkRequestEnvelope υ) : Except WorkError Frame := do
  let message ← (envelope.message W).mapError WorkError.der
  let wrapper : FrameConfig :=
    { version := some .v0, id := envelope.correlationId, message := message }
  (wrapper.build L >>= L.fromDer).mapError WorkError.tightBeam

end WorkRequestEnvelope

/-- The grammar: under the tag of `ClusterRequest::Work`, a sequence of a URN and an octet string,
and nothing else. -/
def readWork {υ : Type} (W : WorkPlane υ) (message : Octets) : Except Der.Fault (υ × Octets) := do
  let tagged ← Der.fromDer W.limit message
  if tagged.tag ≠ 0xA2 then .error .tagUnexpected
  else
    let body ← Der.fromDer W.limit tagged.value
    if body.tag ≠ 0x30 then .error .tagUnexpected
    else
      match ← (Der.codec W.limit).readAll body.value with
      | [urn, payload] =>
          if urn.tag ≠ 0x0C ∨ payload.tag ≠ 0x04 then .error .tagUnexpected
          else
            match W.parseUrn urn.value with
            | some urn => .ok (urn, payload.value)
            | none => .error .value
      | _ => .error .tagUnexpected

section

variable {υ : Type} {W : WorkPlane υ}

/-- The octets of an envelope. -/
def WorkRequestEnvelope.octets (W : WorkPlane υ) (envelope : WorkRequestEnvelope υ) : Octets :=
  element 0xA2 (element 0x30 (WorkRequestBody.elements W ⟨envelope.servletType, envelope.workDer⟩))

/-- The message of an envelope, where it fits. -/
theorem message_eq_ok {envelope : WorkRequestEnvelope υ} {message : Octets} :
    envelope.message W = .ok message ↔
      message = envelope.octets W ∧ (envelope.octets W).length ≤ W.limit.max :=
  (WorkRequestBody.encodes.explicit 2).toDer_eq_ok

/-- **The envelope reads as it was made**, and nothing is left over. -/
theorem readWork_envelope (hurns : W.ReadsUrns) {envelope : WorkRequestEnvelope υ}
    (hfits : (envelope.octets W).length ≤ W.limit.max) :
    readWork W (envelope.octets W) = .ok (envelope.servletType, envelope.workDer) := by
  have hwrite : (element 0x0C (W.urnText envelope.servletType)).length +
      (element 0x04 envelope.workDer).length ≤ W.limit.max → (Der.codec W.limit).writeAll
        [⟨0x0C, W.urnText envelope.servletType⟩, ⟨0x04, envelope.workDer⟩] =
      .ok (WorkRequestBody.elements W ⟨envelope.servletType, envelope.workDer⟩) := by
    intro hparts
    rw [Der.length_element, Der.length_element] at hparts
    have htext : (Der.codec W.limit).write ⟨0x0C, W.urnText envelope.servletType⟩ =
        .ok (element 0x0C (W.urnText envelope.servletType)) := if_pos (by dsimp only; omega)
    have hpayload : (Der.codec W.limit).write ⟨0x04, envelope.workDer⟩ =
        .ok (element 0x04 envelope.workDer) := if_pos (by dsimp only; omega)
    simp only [Tlv.Codec.writeAll, htext, hpayload, Except.bind, Except.map, List.append_nil]
    rfl
  have hlength : (WorkRequestBody.elements W ⟨envelope.servletType, envelope.workDer⟩).length =
      (element 0x0C (W.urnText envelope.servletType)).length +
        (element 0x04 envelope.workDer).length := List.length_append
  rw [WorkRequestEnvelope.octets] at hfits ⊢
  generalize WorkRequestBody.elements W ⟨envelope.servletType, envelope.workDer⟩ = body at *
  -- from the outside in, each part is shorter than what holds it
  rw [Der.length_element] at hfits
  have houter : (element 0x30 body).length ≤ W.limit.max := by omega
  rw [Der.length_element] at hfits
  have hinner : body.length ≤ W.limit.max := by omega
  have hread := (Der.codec_lawful W.limit).readAll_writeAll (hwrite (by omega))
  rw [readWork, bind_eq_of_ok (Der.fromDer_element houter _), if_neg (by simp),
    bind_eq_of_ok (Der.fromDer_element hinner _), if_neg (by simp), bind_eq_of_ok hread]
  dsimp only
  rw [if_neg (by simp), hurns]

end

/-! ### The reply -/

/-- `WorkReply`. -/
structure WorkReply where
  /-- The status. -/
  status : TransitStatus
  /-- The payload. -/
  payload : Option Octets
  deriving DecidableEq, Repr

namespace WorkReply

variable {υ : Type} (W : WorkPlane υ) (L : Library)

/-- `TransitStatus::decode`, and what follows it. -/
def decodeStatus (value : Octets) : Except Der.Fault (TransitStatus × Octets) := do
  let (e, rest) ← Der.readElement W.limit value
  if e.tag ≠ 0x0A then .error .tagUnexpected
  else
    match W.statusOf e.value with
    | some status => .ok (status, rest)
    | none => .error .value

/-- `Option::<OctetString>::decode`, and what follows it. -/
def decodePayload : Octets → Except Der.Fault (Option Octets × Octets)
  | [] => .ok (none, [])
  | tag :: value =>
      if tag = 0x04 then do
        let (e, rest) ← Der.readElement W.limit (tag :: value)
        .ok (some e.value, rest)
      else .ok (none, tag :: value)

/-- `decode_value`. -/
def decodeValue (value : Octets) : Except Der.Fault WorkReply := do
  let (status, rest) ← decodeStatus W value
  let (payload, rest) ← decodePayload W rest
  if rest.isEmpty then .ok ⟨status, payload⟩ else .error .trailingData

/-- `from_der`. -/
def fromDer (message : Octets) : Except Der.Fault WorkReply := do
  let (e, rest) ← Der.readElement W.limit message
  if e.tag ≠ 0x30 then .error .tagUnexpected
  else
    let reply ← decodeValue W e.value
    if rest.isEmpty then .ok reply else .error .trailingData

/-- `try_from`: the reply in the message of a frame. -/
def tryFrom (frame : Frame) : Except WorkError WorkReply :=
  (fromDer W frame.message).mapError WorkError.der

/-- `refusal_checked`. -/
def refusalChecked (reply : WorkReply) : Except WorkError Octets :=
  if reply.status ≠ .ok then .error (.workRefused reply.status)
  else
    match reply.payload with
    | some payload => .ok payload
    | none => .error .missingResponse

/-- `served`. -/
def served (reply : WorkReply) : Except WorkError Frame := do
  let payload ← reply.refusalChecked
  (L.fromDer payload).mapError WorkError.tightBeam

/-- `served_der`. -/
def servedDer (reply : WorkReply) : Except WorkError Octets := do
  let payload ← reply.refusalChecked
  let _ ← (L.fromDer payload).mapError WorkError.tightBeam
  .ok payload

/-! What replies are read. -/

variable {W}

/-- The element of a payload, when there is one. -/
def payloadOctets : Option Octets → Octets
  | none => []
  | some payload => element 0x04 payload

/-- The octets of a reply with a status of these octets. -/
def octets (status : Octets) (payload : Option Octets) : Octets :=
  element 0x30 (element 0x0A status ++ payloadOctets payload)

theorem decodeStatus_eq_ok {value rest : Octets} {status : TransitStatus} :
    decodeStatus W value = .ok (status, rest) ↔ ∃ code, W.statusOf code = some status ∧
      value = element 0x0A code ++ rest ∧ code.length ≤ W.limit.max := by
  constructor
  · intro h
    obtain ⟨⟨⟨tag, code⟩, after⟩, hread, h⟩ := bind_ok h
    dsimp only at h
    split at h
    · cases h
    · next htag =>
      obtain rfl := not_not.1 htag
      split at h
      · next hstatus =>
        cases h
        obtain ⟨hvalue, hle⟩ := Der.readElement_eq hread
        exact ⟨code, hstatus, hvalue, hle⟩
      · cases h
  · rintro ⟨code, hstatus, rfl, hle⟩
    rw [decodeStatus, bind_eq_of_ok (Der.readElement_element hle _ _)]
    dsimp only
    rw [if_neg (by simp), hstatus]

/-- A payload is read to the end when it is all there is. -/
theorem decodePayload_eq_ok {value : Octets} {payload : Option Octets} :
    decodePayload W value = .ok (payload, []) ↔
      value = payloadOctets payload ∧ ∀ octets, payload = some octets → octets.length ≤ W.limit.max := by
  cases value with
  | nil =>
    constructor
    · intro h
      cases h
      exact ⟨rfl, by simp⟩
    · rintro ⟨hvalue, -⟩
      cases payload with
      | none => rfl
      | some octets => cases hvalue
  | cons tag value =>
    constructor
    · intro h
      unfold decodePayload at h
      dsimp only at h
      split at h
      · next htag =>
        subst htag
        obtain ⟨⟨⟨tag, octets⟩, rest⟩, hread, h⟩ := bind_ok h
        cases h
        obtain ⟨hvalue, hle⟩ := Der.readElement_eq hread
        rw [List.append_nil] at hvalue
        -- what was read begins with its tag
        obtain rfl : 0x04 = tag := (List.cons.inj hvalue).1
        refine ⟨hvalue, ?_⟩
        rintro _ ⟨⟩
        exact hle
      · cases h
    · rintro ⟨hvalue, hle⟩
      cases payload with
      | none => cases hvalue
      | some octets =>
        have hread := Der.readElement_element (hle octets rfl) 0x04 []
        rw [List.append_nil] at hread
        obtain rfl : tag = 0x04 := (List.cons.inj hvalue).1
        rw [payloadOctets] at hvalue
        unfold decodePayload
        dsimp only
        rw [if_pos rfl, hvalue, bind_eq_of_ok hread]

theorem fromDer_eq_ok {message : Octets} {reply : WorkReply} :
    fromDer W message = .ok reply ↔ ∃ code, W.statusOf code = some reply.status ∧
      message = octets code reply.payload ∧
      (element 0x0A code ++ payloadOctets reply.payload).length ≤ W.limit.max := by
  constructor
  · intro h
    obtain ⟨⟨⟨tag, value⟩, rest⟩, hread, h⟩ := bind_ok h
    dsimp only at h
    split at h
    · cases h
    · next htag =>
      obtain rfl := not_not.1 htag
      obtain ⟨reply', hvalue, h⟩ := bind_ok h
      split at h
      · next hempty =>
        cases h
        obtain ⟨hmessage, hle⟩ := Der.readElement_eq hread
        rw [List.isEmpty_iff.1 hempty, List.append_nil] at hmessage
        -- the sequence holds the status, the payload, and nothing after it
        obtain ⟨⟨status, after⟩, hstatus, hvalue⟩ := bind_ok hvalue
        obtain ⟨⟨payload, left⟩, hpayload, hvalue⟩ := bind_ok hvalue
        dsimp only at hvalue hpayload
        split at hvalue
        · next hleft =>
          cases hvalue
          rw [List.isEmpty_iff.1 hleft] at hpayload
          obtain ⟨code, hcode, rfl, -⟩ := decodeStatus_eq_ok.1 hstatus
          obtain ⟨rfl, -⟩ := decodePayload_eq_ok.1 hpayload
          exact ⟨code, hcode, hmessage, hle⟩
        · cases hvalue
      · cases h
  · rintro ⟨code, hcode, rfl, hle⟩
    have hparts := hle
    rw [List.length_append, Der.length_element] at hparts
    have hstatus : decodeStatus W (element 0x0A code ++ payloadOctets reply.payload) =
        .ok (reply.status, payloadOctets reply.payload) :=
      decodeStatus_eq_ok.2 ⟨code, hcode, rfl, by omega⟩
    have hpayload : decodePayload W (payloadOctets reply.payload) = .ok (reply.payload, []) := by
      refine decodePayload_eq_ok.2 ⟨rfl, ?_⟩
      intro payload hsome
      rw [hsome, payloadOctets, Der.length_element] at hparts
      omega
    have hread := Der.readElement_element hle 0x30 []
    rw [List.append_nil] at hread
    rw [fromDer, octets, bind_eq_of_ok hread]
    dsimp only
    rw [if_neg (by simp), decodeValue, bind_eq_of_ok hstatus]
    dsimp only
    rw [bind_eq_of_ok hpayload]
    rfl

/-! What is served. -/

variable {L}

/-- **A reply is read in full**: the message is its status, its payload, and nothing else. -/
theorem tryFrom_eq_ok {frame : Frame} {reply : WorkReply} :
    tryFrom W frame = .ok reply ↔ ∃ code, W.statusOf code = some reply.status ∧
      frame.message = octets code reply.payload ∧
      (element 0x0A code ++ payloadOctets reply.payload).length ≤ W.limit.max := by
  rw [← fromDer_eq_ok]
  constructor
  · exact mapError_ok
  · intro h
    rw [tryFrom, h]
    rfl

/-- A refusal wins, whatever the payload. -/
theorem refused {reply : WorkReply} (h : reply.status ≠ .ok) :
    reply.served L = .error (.workRefused reply.status) ∧
      reply.servedDer L = .error (.workRefused reply.status) := by
  have hrefused : reply.refusalChecked = .error (.workRefused reply.status) := if_pos h
  constructor
  · rw [served, hrefused]
    rfl
  · rw [servedDer, hrefused]
    rfl

theorem refusalChecked_eq_ok {reply : WorkReply} {payload : Octets} :
    reply.refusalChecked = .ok payload ↔ reply = ⟨.ok, some payload⟩ := by
  obtain ⟨status, found⟩ := reply
  unfold refusalChecked
  dsimp only
  by_cases hstatus : status = .ok
  · subst hstatus
    cases found <;> simp
  · simp [hstatus]

theorem served_eq_ok {reply : WorkReply} {frame : Frame} :
    reply.served L = .ok frame ↔
      ∃ payload, reply = ⟨.ok, some payload⟩ ∧ L.fromDer payload = .ok frame := by
  constructor
  · intro h
    obtain ⟨payload, hpayload, h⟩ := bind_ok h
    exact ⟨payload, refusalChecked_eq_ok.1 hpayload, mapError_ok h⟩
  · rintro ⟨payload, rfl, hframe⟩
    rw [served, bind_eq_of_ok (refusalChecked_eq_ok.2 rfl), hframe]
    rfl

theorem servedDer_eq_ok {reply : WorkReply} {payload : Octets} :
    reply.servedDer L = .ok payload ↔
      reply = ⟨.ok, some payload⟩ ∧ ∃ frame, L.fromDer payload = .ok frame := by
  constructor
  · intro h
    obtain ⟨found, hpayload, h⟩ := bind_ok h
    obtain ⟨frame, hframe, h⟩ := bind_ok h
    cases h
    exact ⟨refusalChecked_eq_ok.1 hpayload, frame, mapError_ok hframe⟩
  · rintro ⟨rfl, frame, hframe⟩
    rw [servedDer, bind_eq_of_ok (refusalChecked_eq_ok.2 rfl), hframe]
    rfl

end WorkReply

/-! ### The transport frame -/

section

variable {υ : Type} {W : WorkPlane υ} {L : Library}

/-- Encoding the decoded frame anew gives the caller's octets back. -/
theorem new_of_fromDer (hL : L.Lawful) {servletType : υ} {workDer : Octets} {work : Frame}
    (hwork : L.fromDer workDer = .ok work) :
    WorkRequestEnvelope.new L servletType work =
      .ok (WorkRequestEnvelope.fromEncoded servletType workDer work) :=
  bind_eq_of_ok (hL.canonical hwork)

/-- **The transport frame** has the envelope and the identifier, and nothing else. -/
theorem intoTransportFrame_eq (hL : L.Lawful) {envelope : WorkRequestEnvelope υ} {frame : Frame}
    (h : envelope.intoTransportFrame W L = .ok frame) :
    (envelope.octets W).length ≤ W.limit.max ∧
      frame = ⟨.v0, ⟨envelope.correlationId, 0, none, none, none, none, none, none, none⟩,
        envelope.octets W, none, none⟩ := by
  obtain ⟨message, hmessage, h⟩ := bind_ok h
  obtain ⟨rfl, hfits⟩ := message_eq_ok.1 (mapError_ok hmessage)
  obtain ⟨der, hder, hframe⟩ := bind_ok (mapError_ok h)
  rw [fromDer_build hL hder] at hframe
  exact ⟨hfits, (Except.ok.inj hframe).symm⟩

/-- **Work envelopes carry exactly the servlet and the frame.**  The body announces the octets it
writes; the message of the transport frame reads as the servlet and the caller's octets, with
nothing left over; and a reply is served only with the status `Ok` and a payload that is a
frame. -/
theorem work_envelope (hL : L.Lawful) (hurns : W.ReadsUrns) :
    (∀ (body : WorkRequestBody υ) n, body.valueLen W = .ok n →
      ∃ value, body.encodeValue W = .ok value ∧ value.length = n) ∧
    (∀ urn w work, L.fromDer w = .ok work →
      ((WorkRequestEnvelope.fromEncoded urn w work).octets W).length ≤ W.limit.max →
        ∃ message, (WorkRequestEnvelope.fromEncoded urn w work).message W = .ok message ∧
          readWork W message = .ok (urn, w)) ∧
    (∀ urn w work frame, L.fromDer w = .ok work →
      (WorkRequestEnvelope.fromEncoded urn w work).intoTransportFrame W L = .ok frame →
        readWork W frame.message = .ok (urn, w) ∧ frame.metadata.id = work.metadata.id) ∧
    (∀ frame served, (WorkReply.tryFrom W frame >>= WorkReply.served L) = .ok served ↔
      ∃ payload, WorkReply.tryFrom W frame = .ok ⟨.ok, some payload⟩ ∧
        L.fromDer payload = .ok served) ∧
    (∀ frame payload, (WorkReply.tryFrom W frame >>= WorkReply.servedDer L) = .ok payload ↔
      WorkReply.tryFrom W frame = .ok ⟨.ok, some payload⟩ ∧
        ∃ served, L.fromDer payload = .ok served) ∧
    (∀ frame status payload, WorkReply.tryFrom W frame = .ok ⟨status, payload⟩ → status ≠ .ok →
      (WorkReply.tryFrom W frame >>= WorkReply.served L) = .error (.workRefused status) ∧
        (WorkReply.tryFrom W frame >>= WorkReply.servedDer L) = .error (.workRefused status)) := by
  refine ⟨?_, ?_, ?_, ?_, ?_, ?_⟩
  · intro body n hn
    obtain ⟨hvalue, hlength⟩ := WorkRequestBody.encodes.encodeValue hn
    exact ⟨_, hvalue, hlength.symm⟩
  · intro urn w work _ hfits
    exact ⟨_, message_eq_ok.2 ⟨rfl, hfits⟩, readWork_envelope hurns hfits⟩
  · intro urn w work frame _ hframe
    obtain ⟨hfits, rfl⟩ := intoTransportFrame_eq hL hframe
    exact ⟨readWork_envelope hurns hfits, rfl⟩
  · intro frame served
    rw [bind_ok_iff]
    simp only [WorkReply.served_eq_ok]
    constructor
    · rintro ⟨reply, hreply, payload, rfl, hserved⟩
      exact ⟨payload, hreply, hserved⟩
    · rintro ⟨payload, hreply, hserved⟩
      exact ⟨_, hreply, payload, rfl, hserved⟩
  · intro frame payload
    rw [bind_ok_iff]
    simp only [WorkReply.servedDer_eq_ok]
    constructor
    · rintro ⟨reply, hreply, rfl, hserved⟩
      exact ⟨hreply, hserved⟩
    · rintro ⟨hreply, hserved⟩
      exact ⟨_, hreply, rfl, hserved⟩
  · intro frame status payload hreply hstatus
    rw [bind_eq_of_ok hreply, bind_eq_of_ok hreply]
    exact WorkReply.refused hstatus

end

namespace Small

/-- The canonical numbers of two statuses, and URNs that are their text. -/
def workPlane : WorkPlane Octets where
  limit := ⟨0x0FFFFFFF, by norm_num⟩
  urnText urn := urn
  parseUrn text := some text
  statusOf code :=
    if code = [0] then some .ok else if code = [14] then some .unavailable else none

/-- `urn:tightbeam::servlet:ping`. -/
def ping : Octets := "urn:tightbeam::servlet:ping".toList.map fun c => UInt8.ofNat c.toNat

/-- The work, as a frame. -/
def work : Frame := ⟨.v0, ⟨[0x01, 0x02], 7, none, none, none, none, none, none, none⟩,
  [0x04, 0x01, 0x2A], none, none⟩

/-- The work, encoded. -/
def workDer : Octets :=
  [0x30, 0x11, 0x0A, 0x01, 0x00, 0x30, 0x07, 0x04, 0x02, 0x01, 0x02, 0x02, 0x01, 0x07, 0x04, 0x03,
    0x04, 0x01, 0x2A]

/-- A frame with this message. -/
def carrier (message : Octets) : Frame :=
  ⟨.v0, ⟨[0x01, 0x02], 0, none, none, none, none, none, none, none⟩, message, none, none⟩

/-- The frames on the way: the work, what the builder starts from, and the transport frame. -/
def workFrames : List Frame :=
  [work, carrier [0x30, 0x02, 0x04, 0x00],
    carrier ((WorkRequestEnvelope.fromEncoded ping workDer work).octets workPlane)]

/-- Work that is wrapped, and two answers to it. -/
theorem work_is_carried : ∃ frame,
    (WorkRequestEnvelope.fromEncoded ping workDer work).intoTransportFrame workPlane
      (library workFrames) = .ok frame ∧
    readWork workPlane frame.message = .ok (ping, workDer) ∧ frame.metadata.id = [0x01, 0x02] ∧
    (WorkReply.tryFrom workPlane (carrier (WorkReply.octets [0] (some workDer))) >>=
      WorkReply.servedDer (library workFrames)) = .ok workDer ∧
    (WorkReply.tryFrom workPlane (carrier (WorkReply.octets [14] (some workDer))) >>=
      WorkReply.servedDer (library workFrames)) = .error (.workRefused .unavailable) := by
  obtain ⟨-, -, hcarried, -, hserved, hrefused⟩ :=
    work_envelope (W := workPlane) (lawful workFrames) (fun _ => rfl)
  have hwork : (library workFrames).fromDer workDer = .ok work := by decide +kernel
  have hframe : (WorkRequestEnvelope.fromEncoded ping workDer work).intoTransportFrame workPlane
      (library workFrames) =
        .ok (carrier ((WorkRequestEnvelope.fromEncoded ping workDer work).octets workPlane)) := by
    decide +kernel
  obtain ⟨hread, hid⟩ := hcarried ping workDer work _ hwork hframe
  exact ⟨_, hframe, hread, hid, (hserved _ _).2 ⟨by decide +kernel, work, hwork⟩,
    (hrefused _ .unavailable (some workDer) (by decide +kernel) (by decide)).2⟩

end Small

end Ws
end TightbeamExt
