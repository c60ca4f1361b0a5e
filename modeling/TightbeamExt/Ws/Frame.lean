import TightbeamExt.Asn.Js
import TightbeamExt.Base.Tlv

/-!
# Frames and splices

`build.rs` never sets a field of a frame: the library keeps them private.  It takes the encoding
of a frame apart into components, replaces or inserts one, and puts the encoding together again.
Here the splices are run on components, and the library that encodes and decodes frames is a
parameter.

## Main definitions

* `Frame` — what the library decodes.
* `Library` — the functions of the library, and `Library.Lawful` what is relied on.
* `setTagged` — the splice of a tagged field.
* `setMessageIntegrity`, `setCompactness`, `setConfidentiality`, `attachWitness`,
  `attachSignature` — the operations on encodings.
* `inspectFrame` — the decoded view.
-/

namespace TightbeamExt
namespace Ws

open Asn (Octets JsNumber)

/-! ### Values of the library -/

/-- What the library fails with. -/
inductive TightBeamError
  /-- `InvalidMetadata`. -/
  | invalidMetadata
  /-- `InvalidBody`. -/
  | invalidBody
  /-- `MissingSignature`. -/
  | missingSignature
  /-- Anything else. -/
  | other (code : ℕ)
  deriving DecidableEq, Repr

/-- The tag of an element. -/
inductive Tag
  /-- `INTEGER`. -/
  | integer
  /-- `OCTET STRING`. -/
  | octetString
  /-- `SEQUENCE`. -/
  | sequence
  /-- A context-specific tag. -/
  | contextSpecific (constructed : Bool) (number : ℕ)
  /-- Another tag. -/
  | other (code : ℕ)
  deriving DecidableEq, Repr

/-- An element: its tag and the octets of its value. -/
structure Any where
  /-- The tag. -/
  tag : Tag
  /-- The value. -/
  value : Octets
  deriving DecidableEq, Repr

/-- An object identifier. -/
structure Oid where
  /-- Its arcs. -/
  arcs : List ℕ
  deriving DecidableEq, Repr

/-- Dotted decimal without needless zeros. -/
def isPlainOid (text : String) : Bool :=
  (text.toList.splitOn '.').all fun part =>
    !part.isEmpty && part.all Char.isDigit && (part.length == 1 || part.head? != some '0')

/-- `id-data`. -/
def Oid.data : Oid := ⟨[1, 2, 840, 113549, 1, 7, 1]⟩

/-- The protocol versions. -/
inductive Version
  /-- `V0`. -/
  | v0
  /-- `V1`. -/
  | v1
  /-- `V2`. -/
  | v2
  /-- `V3`. -/
  | v3
  deriving DecidableEq, Repr

/-- The wire ordinal. -/
def Version.ordinal : Version → ℕ
  | .v0 => 0
  | .v1 => 1
  | .v2 => 2
  | .v3 => 3

/-- The message priorities. -/
inductive MessagePriority
  /-- `LowEffort`. -/
  | lowEffort
  /-- `Standard`. -/
  | standard
  /-- `HighThroughput`. -/
  | highThroughput
  /-- `LowLatency`. -/
  | lowLatency
  /-- `Expedited`. -/
  | expedited
  /-- `NetworkControl`. -/
  | networkControl
  deriving DecidableEq, Repr

/-- The wire ordinal. -/
def MessagePriority.ordinal : MessagePriority → ℕ
  | .lowEffort => 0
  | .standard => 1
  | .highThroughput => 2
  | .lowLatency => 3
  | .expedited => 4
  | .networkControl => 5

/-- `AlgorithmIdentifierOwned`. -/
structure AlgorithmIdentifier where
  /-- The algorithm. -/
  oid : Oid
  /-- Its parameters. -/
  parameters : Option Any
  deriving DecidableEq, Repr

/-- A digest and the algorithm it is of. -/
structure DigestInfo where
  /-- The algorithm. -/
  algorithm : AlgorithmIdentifier
  /-- The octets. -/
  digest : Octets
  deriving DecidableEq, Repr

/-- `CompressedData`: how a body was compressed. -/
structure CompressedData where
  /-- `CmsVersion`. -/
  version : ℕ
  /-- The algorithm. -/
  compressionAlg : AlgorithmIdentifier
  /-- The type of the uncompressed content. -/
  econtentType : Oid
  /-- The content, when it is not detached. -/
  econtent : Option Any
  deriving DecidableEq, Repr

/-- The envelope that seals a body. -/
structure AuthEnvelopedData where
  /-- The content-encryption algorithm. -/
  contentEncAlg : Oid
  /-- The recipients, the content type, the nonce and the tag. -/
  other : Octets
  deriving DecidableEq, Repr

/-- Who signed. -/
inductive SignerIdentifier
  /-- By subject key identifier. -/
  | subjectKeyIdentifier (octets : Octets)
  /-- By issuer and serial number. -/
  | issuerAndSerialNumber (octets : Octets)
  deriving DecidableEq, Repr

/-- `SignerInfo`: a signature. -/
structure SignerInfo where
  /-- Who signed. -/
  sid : SignerIdentifier
  /-- The digest algorithm. -/
  digestAlg : Oid
  /-- The signed attributes. -/
  signedAttrs : Octets
  /-- The signature algorithm. -/
  signatureAlgorithm : Oid
  /-- The octets. -/
  signature : Octets
  deriving DecidableEq, Repr

/-- A `SignerInfo` that its signature completes. -/
structure SignerInfoDraft where
  /-- Who signs. -/
  sid : SignerIdentifier
  /-- The signed attributes. -/
  signedAttrs : Octets
  /-- What the key signs. -/
  prehash : Octets
  deriving DecidableEq, Repr

/-- `MatrixDyn`: a control matrix, row by row. -/
structure Matrix where
  /-- The dimension. -/
  n : UInt8
  /-- The octets. -/
  data : Octets
  deriving DecidableEq, Repr

/-- The mode a commitment salt selects. -/
inductive CommitmentSalt
  /-- Binding only. -/
  | plain
  /-- Hiding. -/
  | hiding
  deriving DecidableEq, Repr

/-- The metadata of a frame. -/
structure Metadata where
  /-- The message identifier. -/
  id : Octets
  /-- The order stamp. -/
  order : ℕ
  /-- How the body was compressed. -/
  compactness : Option CompressedData
  /-- The commitment to the body. -/
  integrity : Option DigestInfo
  /-- The envelope that seals the body. -/
  confidentiality : Option AuthEnvelopedData
  /-- The priority. -/
  priority : Option MessagePriority
  /-- Time to live. -/
  lifetime : Option ℕ
  /-- The parent frame. -/
  previousFrame : Option DigestInfo
  /-- The control matrix. -/
  matrix : Option Matrix
  deriving DecidableEq, Repr

/-- A frame. -/
structure Frame where
  /-- The protocol version. -/
  version : Version
  /-- The metadata. -/
  metadata : Metadata
  /-- The body. -/
  message : Octets
  /-- The witness. -/
  integrity : Option DigestInfo
  /-- The signature. -/
  nonrepudiation : Option SignerInfo
  deriving DecidableEq, Repr

/-- `FrameConfig`: the structural fields. -/
structure FrameConfig where
  /-- The protocol version; the floor of the fields without one. -/
  version : Option Version := none
  /-- The message identifier. -/
  id : Octets := []
  /-- The order stamp. -/
  order : ℕ := 0
  /-- The body. -/
  message : Octets := []
  /-- The priority. -/
  priority : Option MessagePriority := none
  /-- Time to live. -/
  lifetime : Option ℕ := none
  /-- The parent frame. -/
  previousHash : Option DigestInfo := none
  /-- The control matrix. -/
  matrix : Option Matrix := none

/-! ### The library -/

/-- The functions of the library. -/
structure Library where
  /-- `Any::decode` and `Any::to_der`. -/
  any : Tlv.Codec TightBeamError UInt8 Any
  /-- `Any::new`. -/
  newAny : Tag → Octets → Except TightBeamError Any
  /-- `str::parse::<ObjectIdentifier>`. -/
  parseOid : String → Option Oid
  /-- `ObjectIdentifier::to_string`. -/
  oidText : Oid → String
  /-- `TightBeamError::to_string`. -/
  errorText : TightBeamError → String
  /-- The first component of a frame. -/
  versionField : Version → Except TightBeamError Any
  /-- The first component of metadata. -/
  idField : Octets → Except TightBeamError Any
  /-- The second component of metadata. -/
  orderField : ℕ → Except TightBeamError Any
  /-- The components of metadata past the envelope: priority, lifetime, parent and matrix. -/
  closing : Option MessagePriority → Option ℕ → Option DigestInfo → Option Matrix →
    Except TightBeamError (List Any)
  /-- `DigestInfo::to_der`. -/
  digestDer : DigestInfo → Except TightBeamError Octets
  /-- `CompressedData::to_der`. -/
  compressedDer : CompressedData → Except TightBeamError Octets
  /-- `AuthEnvelopedData::to_der`. -/
  envelopeDer : AuthEnvelopedData → Except TightBeamError Octets
  /-- `WireDer::<AuthEnvelopedData>::try_from`. -/
  parseEnvelope : Octets → Except TightBeamError AuthEnvelopedData
  /-- `SignerInfo::to_der`. -/
  signerDer : SignerInfo → Except TightBeamError Octets
  /-- The context tag of the signature of a frame. -/
  signerTag : ℕ
  /-- `Frame::from_der`. -/
  fromDer : Octets → Except TightBeamError Frame
  /-- `Frame::to_der`. -/
  toDer : Frame → Except TightBeamError Octets
  /-- `Frame::to_tbs`. -/
  toTbs : Frame → Except TightBeamError Octets
  /-- `FrameBuilder` at a version, with the fields of a config and an encoded message. -/
  builder : Version → FrameConfig → Octets → Except TightBeamError Frame
  /-- `MatrixDyn::from_row_major`. -/
  fromRowMajor : UInt8 → Octets → Option Matrix
  /-- `CommitmentSalt::parse`. -/
  parseSalt : Octets → Except TightBeamError CommitmentSalt
  /-- `CmsSigner::draft` over to-be-signed octets. -/
  draft : SignerIdentifier → Octets → Except TightBeamError SignerInfoDraft
  /-- `SignerInfoDraft::complete`. -/
  complete : SignerInfoDraft → Octets → Except TightBeamError SignerInfo
  /-- `Frame::attach_signer_info`. -/
  attachSignerInfo : Frame → SignerInfo → Except TightBeamError Frame
  /-- The text of a JavaScript number. -/
  numberText : JsNumber → String

namespace Library

variable (L : Library)

/-- `Any::from_der`. -/
def anyFromDer (der : Octets) : Except TightBeamError Any :=
  match L.any.read der with
  | .error e => .error e
  | .ok (a, []) => .ok a
  | .ok (_, _ :: _) => .error (.other 0)

/-- `RawSequence::to_der`. -/
def sequenceDer (components : List Any) : Except TightBeamError Octets :=
  (L.any.writeAll components).bind fun value => L.any.write ⟨.sequence, value⟩

/-- `RawSequence::from_der`. -/
def sequenceFromDer (der : Octets) : Except TightBeamError (List Any) :=
  (L.anyFromDer der).bind fun a =>
    if a.tag = .sequence then L.any.readAll a.value else .error (.other 1)

/-- A dotted text as the library spells the identifier it names. -/
def spelled (text : String) : String := (L.parseOid text).elim text L.oidText

/-! ### The layout of a frame -/

/-- The components of a field that may be absent. -/
def optional {α : Type} (field : α → Except TightBeamError Any) :
    Option α → Except TightBeamError (List Any)
  | none => .ok []
  | some a => (field a).map fun c => [c]

/-- The EXPLICIT `[number]` field around an encoding. -/
def tagged (number : ℕ) (der : Octets) : Except TightBeamError Any :=
  L.newAny (.contextSpecific true number) der

/-- A SEQUENCE as one component. -/
def sequenceField (components : List Any) : Except TightBeamError Any :=
  (L.sequenceDer components).bind L.anyFromDer

/-- The components of metadata: `id`, `order`, `compactness`, and the fields with a context
tag, in the order of their tags. -/
def metadataComponents (m : Metadata) : Except TightBeamError (List Any) := do
  let id ← L.idField m.id
  let order ← L.orderField m.order
  let compactness ← optional (fun c => (L.compressedDer c).bind L.anyFromDer) m.compactness
  let integrity ← optional (fun d => (L.digestDer d).bind (L.tagged 0)) m.integrity
  let confidentiality ← optional (fun e => (L.envelopeDer e).bind (L.tagged 1)) m.confidentiality
  let closing ← L.closing m.priority m.lifetime m.previousFrame m.matrix
  .ok (id :: order :: (compactness ++ (integrity ++ (confidentiality ++ closing))))

/-- The components of a frame: `version`, `metadata`, `message`, and the fields with a context
tag. -/
def frameComponents (f : Frame) : Except TightBeamError (List Any) := do
  let version ← L.versionField f.version
  let metadata ← (L.metadataComponents f.metadata).bind L.sequenceField
  let integrity ← optional (fun d => (L.digestDer d).bind (L.tagged 0)) f.integrity
  let signer ← optional (fun s => (L.signerDer s).bind (L.tagged L.signerTag)) f.nonrepudiation
  .ok (version :: metadata :: ⟨.octetString, f.message⟩ :: (integrity ++ signer))

/-- What is relied on: DER is canonical, a frame is encoded field by field and read back as it
was, the builder sets the fields it is given, and a signature is attached to a frame without
changing it. -/
structure Lawful : Prop where
  /-- DER elements are read back as they were written, and have one encoding. -/
  any : L.any.Lawful
  /-- An element is its tag and its value. -/
  newAny : ∀ {tag value a}, L.newAny tag value = .ok a → a = ⟨tag, value⟩
  /-- The text of an identifier is read back. -/
  parseOid : ∀ {text oid}, L.parseOid text = some oid → L.parseOid (L.oidText oid) = some oid
  /-- The text of an identifier is dotted decimal without needless zeros. -/
  oidText : ∀ {text oid}, isPlainOid text = true → L.parseOid text = some oid →
    L.oidText oid = text
  /-- The version of a frame has no context tag. -/
  versionField : ∀ {v a}, L.versionField v = .ok a → ∀ c n, a.tag ≠ .contextSpecific c n
  /-- The identifier of a frame has no context tag. -/
  idField : ∀ {id a}, L.idField id = .ok a → ∀ c n, a.tag ≠ .contextSpecific c n
  /-- The order of a frame has no context tag. -/
  orderField : ∀ {order a}, L.orderField order = .ok a → ∀ c n, a.tag ≠ .contextSpecific c n
  /-- Compactness info is a SEQUENCE. -/
  compressedDer : ∀ {c der a}, L.compressedDer c = .ok der → L.anyFromDer der = .ok a →
    a.tag = .sequence
  /-- The fields past the envelope have the context tags past it. -/
  closing : ∀ {priority lifetime parent matrix cs},
    L.closing priority lifetime parent matrix = .ok cs →
    ∀ a ∈ cs, ∃ c n, a.tag = .contextSpecific c n ∧ 1 < n
  /-- The signature has a context tag past the witness. -/
  signerTag : 0 < L.signerTag
  /-- An envelope has one encoding. -/
  envelope : ∀ {der e}, L.parseEnvelope der = .ok e → L.envelopeDer e = .ok der
  /-- A frame is encoded as its components. -/
  toDer : ∀ {f der}, L.toDer f = .ok der ↔
    ∃ cs, L.frameComponents f = .ok cs ∧ L.sequenceDer cs = .ok der
  /-- A frame has one encoding. -/
  canonical : ∀ {der f}, L.fromDer der = .ok f → L.toDer f = .ok der
  /-- A frame is not read as another. -/
  faithful : ∀ {der f g}, L.toDer f = .ok der → L.fromDer der = .ok g → g = f
  /-- The builder sets the fields it is given and no others. -/
  builder : ∀ {v config message f}, L.builder v config message = .ok f →
    f = ⟨v, ⟨config.id, config.order, none, none, none, config.priority, config.lifetime,
      config.previousHash, config.matrix⟩, message, none, none⟩
  /-- A matrix has the octets it was made of. -/
  fromRowMajor : ∀ {n data m}, L.fromRowMajor n data = some m → m = ⟨n, data⟩
  /-- The to-be-signed octets are of everything but the signature. -/
  toTbs : ∀ f signer, L.toTbs { f with nonrepudiation := signer } = L.toTbs f
  /-- A draft is of the signer it is for. -/
  draft : ∀ {sid tbs d}, L.draft sid tbs = .ok d → d.sid = sid
  /-- A completed draft is the profile signature of its signer. -/
  complete : ∀ {d signature info}, L.complete d signature = .ok info →
    info.sid = d.sid ∧ info.signature = signature ∧
    L.oidText info.signatureAlgorithm = "2.16.840.1.101.3.4.3.10" ∧
    L.oidText info.digestAlg = "2.16.840.1.101.3.4.2.8"
  /-- A signature is attached to a frame without changing it. -/
  attachSignerInfo : ∀ {f info g}, L.attachSignerInfo f info = .ok g →
    g = { f with nonrepudiation := some info }
  /-- What was signed can be read. -/
  readable : ∀ {f info g der}, L.attachSignerInfo f info = .ok g → L.toDer g = .ok der →
    ∃ h, L.fromDer der = .ok h

end Library

/-- A call on what may be absent, as `map` and `transpose` make it. -/
def transpose {ε α β : Type} (f : α → Except ε β) : Option α → Except ε (Option β)
  | none => .ok none
  | some a => (f a).map some

/-! ### Splices -/

section Splices

variable (L : Library)

/-- The component holds a context tag at or past a number. -/
def atOrPast (number : ℕ) (c : Any) : Bool :=
  match c.tag with
  | .contextSpecific _ held => number ≤ held
  | _ => false

/-- `set_tagged`: place a `[number]` field in tag order among the context fields, in place of
the field that holds the number. -/
def setTagged (components : List Any) (number : ℕ) (der : Octets) :
    Except TightBeamError (List Any) := do
  let field ← L.newAny (.contextSpecific true number) der
  -- the length when there is none
  let position := components.findIdx (atOrPast number)
  match components[position]? with
  | some held =>
      if held.tag = .contextSpecific true number then .ok (components.set position field)
      else .ok (components.insertIdx position field)
  | none => .ok (components.insertIdx position field)

/-- `WireFrame`: the components of a frame and of its metadata. -/
structure WireFrame where
  /-- Those of the frame. -/
  frame : List Any
  /-- Those of the metadata. -/
  metadata : List Any

namespace WireFrame

/-- `WireFrame::parse`. -/
def parse (frameDer : Octets) : Except TightBeamError WireFrame := do
  let _ ← L.fromDer frameDer
  let frame ← L.sequenceFromDer frameDer
  match frame[1]? with
  | none => .error .invalidMetadata
  | some metadata => do
      let der ← L.any.write metadata
      let metadata ← L.sequenceFromDer der
      .ok ⟨frame, metadata⟩

/-- `set_message`. -/
def setMessage (wire : WireFrame) (message : Octets) : Except TightBeamError WireFrame := do
  let der ← L.any.write ⟨.octetString, message⟩
  let message ← L.anyFromDer der
  if 2 < wire.frame.length then .ok { wire with frame := wire.frame.set 2 message }
  else .error .invalidBody

/-- `set_compactness`. -/
def setCompactness (wire : WireFrame) (compactness : CompressedData) :
    Except TightBeamError WireFrame := do
  let der ← L.compressedDer compactness
  let field ← L.anyFromDer der
  match wire.metadata[2]? with
  | some held =>
      if held.tag = .sequence then .ok { wire with metadata := wire.metadata.set 2 field }
      else .ok { wire with metadata := wire.metadata.insertIdx 2 field }
  | none => .ok { wire with metadata := wire.metadata.insertIdx 2 field }

/-- `witness_input`: the encoding of `SEQUENCE { version, metadata }`. -/
def witnessInput (wire : WireFrame) : Except TightBeamError Octets :=
  match wire.frame[0]? with
  | none => .error .invalidMetadata
  | some version => do
      let metadata ← L.sequenceField wire.metadata
      L.sequenceDer [version, metadata]

/-- `finish`: reassemble the frame, and refuse what the library refuses. -/
def finish (wire : WireFrame) : Except TightBeamError Octets := do
  let metadata ← L.sequenceField wire.metadata
  if 1 < wire.frame.length then do
    let spliced ← L.sequenceDer (wire.frame.set 1 metadata)
    let _ ← L.fromDer spliced
    .ok spliced
  else .error .invalidMetadata

end WireFrame

/-- `algorithm`: an identifier without parameters. -/
def algorithm (oid : Oid) : AlgorithmIdentifier := ⟨oid, none⟩

/-- `body_preimage`: the opaque profile body. -/
def bodyPreimage (message : Octets) : Except TightBeamError Octets :=
  L.sequenceDer [⟨.octetString, message⟩]

/-- `decode_body`. -/
def decodeBody (bodyDer : Octets) : Except TightBeamError Octets := do
  match ← L.sequenceFromDer bodyDer with
  | [⟨.octetString, message⟩] => .ok message
  | _ => .error (.other 2)

/-- `u64::to_be_bytes`. -/
def beBytes (n : ℕ) : Octets := (List.range 8).map fun i => UInt8.ofNat (n / 256 ^ (7 - i))

/-- `commitment_preimage`. -/
def commitmentPreimage (salt bodyDer : Octets) : Except TightBeamError Octets := do
  match ← L.parseSalt salt with
  | .plain => .ok (0x00 :: bodyDer)
  | .hiding => .ok (0x01 :: (beBytes salt.length ++ salt ++ bodyDer))

/-- `FrameConfig::effective_version`. -/
def FrameConfig.effectiveVersion (config : FrameConfig) : Version :=
  match config.version with
  | some version => version
  | none =>
      if config.matrix.isSome then .v3
      else if config.priority.isSome ∨ config.lifetime.isSome ∨ config.previousHash.isSome then .v2
      else .v0

/-- `FrameConfig::build`: build with an empty placeholder, then install the body. -/
def FrameConfig.build (config : FrameConfig) : Except TightBeamError Octets := do
  let placeholder ← bodyPreimage L []
  let frame ← L.builder config.effectiveVersion config placeholder
  let wire ← WireFrame.parse L (← L.toDer frame)
  (← wire.setMessage L config.message).finish L

/-- `set_message_integrity`. -/
def setMessageIntegrity (frameDer : Octets) (oid : Oid) (digest : Octets) :
    Except TightBeamError Octets := do
  let wire ← WireFrame.parse L frameDer
  let commitment ← L.digestDer ⟨algorithm oid, digest⟩
  let metadata ← setTagged L wire.metadata 0 commitment
  { wire with metadata }.finish L

/-- `set_confidentiality`. -/
def setConfidentiality (frameDer envelopeDer ciphertext : Octets) :
    Except TightBeamError Octets := do
  let envelope ← L.parseEnvelope envelopeDer
  let wire ← WireFrame.parse L frameDer
  let metadata ← setTagged L wire.metadata 1 (← L.envelopeDer envelope)
  let wire ← { wire with metadata }.setMessage L ciphertext
  wire.finish L

/-- `set_compactness`. -/
def setCompactness (frameDer : Octets) (contentOid : Option Oid) (algorithmOid : Oid)
    (parametersDer : Option Octets) (compressed : Octets) : Except TightBeamError Octets := do
  let parameters ← transpose L.anyFromDer parametersDer
  let wire ← WireFrame.parse L frameDer
  let wire ← wire.setCompactness L ⟨0, ⟨algorithmOid, parameters⟩, contentOid.getD .data, none⟩
  let wire ← wire.setMessage L compressed
  wire.finish L

/-- `witness_input`. -/
def witnessInput (frameDer : Octets) : Except TightBeamError Octets := do
  (← WireFrame.parse L frameDer).witnessInput L

/-- `attach_witness`. -/
def attachWitness (frameDer : Octets) (oid : Oid) (digest : Octets) :
    Except TightBeamError Octets := do
  let wire ← WireFrame.parse L frameDer
  let witness ← L.digestDer ⟨algorithm oid, digest⟩
  let frame ← setTagged L wire.frame 0 witness
  { wire with frame }.finish L

/-- `signature_draft`. -/
def signatureDraft (frame : Frame) (sid : SignerIdentifier) :
    Except TightBeamError SignerInfoDraft := do
  L.draft sid (← L.toTbs frame)

/-- `signing_prehash`. -/
def signingPrehash (frameDer signerKeyId : Octets) : Except TightBeamError Octets := do
  let frame ← L.fromDer frameDer
  let draft ← signatureDraft L frame (.subjectKeyIdentifier signerKeyId)
  .ok draft.prehash

/-- `signature_prehash`. -/
def signaturePrehash (frameDer : Octets) : Except TightBeamError Octets := do
  let frame ← L.fromDer frameDer
  match frame.nonrepudiation with
  | none => .error .missingSignature
  | some signerInfo => do
      let draft ← signatureDraft L frame signerInfo.sid
      .ok draft.prehash

/-- `attach_signature`. -/
def attachSignature (frameDer signature signerKeyId : Octets) : Except TightBeamError Octets := do
  let frame ← L.fromDer frameDer
  let draft ← signatureDraft L frame (.subjectKeyIdentifier signerKeyId)
  let frame ← L.attachSignerInfo frame (← L.complete draft signature)
  L.toDer frame

/-! ### The decoded view -/

/-- `FrameSummary`: the decoded view of a frame, identifiers in dotted form. -/
structure FrameSummary where
  /-- The version ordinal. -/
  version : ℕ
  /-- The message identifier. -/
  id : Octets
  /-- The order stamp. -/
  order : ℕ
  /-- The body. -/
  bodyDer : Octets
  /-- The priority ordinal. -/
  priority : Option ℕ
  /-- Time to live. -/
  lifetime : Option ℕ
  /-- The digest algorithm of the parent link. -/
  previousHashAlgorithmOid : Option String
  /-- The digest of the parent link. -/
  previousHashDigest : Option Octets
  /-- The dimension of the matrix. -/
  matrixN : Option UInt8
  /-- The octets of the matrix. -/
  matrixData : Option Octets
  /-- The compression algorithm. -/
  compactnessAlgorithmOid : Option String
  /-- Its parameters. -/
  compactnessParametersDer : Option Octets
  /-- The type of the uncompressed body. -/
  compactnessContentOid : Option String
  /-- The digest algorithm of the commitment. -/
  messageIntegrityAlgorithmOid : Option String
  /-- The commitment. -/
  messageIntegrityDigest : Option Octets
  /-- The digest algorithm of the witness. -/
  frameIntegrityAlgorithmOid : Option String
  /-- The witness. -/
  frameIntegrityDigest : Option Octets
  /-- The content-encryption algorithm. -/
  confidentialityAlgorithmOid : Option String
  /-- The envelope. -/
  confidentialityEnvelopeDer : Option Octets
  /-- The signature algorithm. -/
  signatureAlgorithmOid : Option String
  /-- The digest the signature is over. -/
  signatureDigestAlgorithmOid : Option String
  /-- The signature. -/
  signature : Option Octets

/-- `inspect_frame`. -/
def inspectFrame (frameDer : Octets) : Except TightBeamError FrameSummary := do
  let frame ← L.fromDer frameDer
  let metadata := frame.metadata
  let compactness := metadata.compactness
  let compactnessParametersDer ← transpose L.any.write
    (compactness.bind fun info => info.compressionAlg.parameters)
  let confidentialityEnvelopeDer ← transpose L.envelopeDer metadata.confidentiality
  .ok {
    version := frame.version.ordinal
    id := metadata.id
    order := metadata.order
    bodyDer := frame.message
    priority := metadata.priority.map MessagePriority.ordinal
    lifetime := metadata.lifetime
    previousHashAlgorithmOid := metadata.previousFrame.map fun info => L.oidText info.algorithm.oid
    previousHashDigest := metadata.previousFrame.map DigestInfo.digest
    matrixN := metadata.matrix.map Matrix.n
    matrixData := metadata.matrix.map Matrix.data
    compactnessAlgorithmOid := compactness.map fun info => L.oidText info.compressionAlg.oid
    compactnessParametersDer
    compactnessContentOid := compactness.map fun info => L.oidText info.econtentType
    messageIntegrityAlgorithmOid := metadata.integrity.map fun info => L.oidText info.algorithm.oid
    messageIntegrityDigest := metadata.integrity.map DigestInfo.digest
    frameIntegrityAlgorithmOid := frame.integrity.map fun info => L.oidText info.algorithm.oid
    frameIntegrityDigest := frame.integrity.map DigestInfo.digest
    confidentialityAlgorithmOid :=
      metadata.confidentiality.map fun envelope => L.oidText envelope.contentEncAlg
    confidentialityEnvelopeDer
    signatureAlgorithmOid := frame.nonrepudiation.map fun info => L.oidText info.signatureAlgorithm
    signatureDigestAlgorithmOid := frame.nonrepudiation.map fun info => L.oidText info.digestAlg
    signature := frame.nonrepudiation.map SignerInfo.signature }

end Splices

end Ws
end TightbeamExt
