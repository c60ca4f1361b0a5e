import TightbeamExt.Ws.Splice

/-!
# Received frames

The client's `Frame`: its octets, the fields decoded from them, and what a receiver does with
it.  The capabilities it uses — hashers, inflators, decryptors, verifiers, message codecs — are
whatever the application brings.

## Main definitions

* `Fault` — what a call throws.
* `Hasher`, `BodyCompressor`, `BodyInflator`, `BodyEncryptor`, `BodyDecryptor`, `FrameVerifier`,
  `Signatory`, `MessageCodec` — capabilities.
* `FrameFields`, `decoded` — the fields of a frame.
* `message`, `inflateMessage`, `decryptMessage` — the body as a message.

## Main results

* `decoded_of_fromDer` — the getters show the fields of the frame.
-/

namespace TightbeamExt
namespace Ws

open Asn (Octets JsNumber)

/-! ### Errors -/

/-- `ValidationIssue`. -/
structure ValidationIssue where
  /-- The path of the field. -/
  path : String
  /-- What is wrong with it. -/
  message : String
  deriving DecidableEq, Repr

/-- What a call throws. -/
inductive Fault
  /-- A `ValidationError`. -/
  | validation (code : String) (issues : List ValidationIssue)
  /-- An `InternalError`. -/
  | internal (code : String) (message : String)
  /-- An error of the wasm module, or of a capability. -/
  | error (message : String)
  deriving DecidableEq, Repr

/-- A call into the wasm module. -/
def wasm {α : Type} (L : Library) (x : Except TightBeamError α) : Except Fault α :=
  x.mapError fun e => .error (L.errorText e)

/-! ### Capabilities -/

/-- `Hasher`. -/
structure Hasher where
  /-- The digest algorithm. -/
  algorithmOid : String
  /-- Digest octets. -/
  digest : Octets → Except Fault Octets

/-- `CompressedBody`. -/
structure CompressedBody where
  /-- The compression algorithm. -/
  algorithmOid : String
  /-- Its parameters. -/
  parametersDer : Option Octets
  /-- The type of the uncompressed body; `id-data` when omitted. -/
  contentOid : Option String
  /-- The compressed octets. -/
  data : Octets
  deriving DecidableEq, Repr

/-- `BodyCompressor`. -/
structure BodyCompressor where
  /-- Compress a body. -/
  compress : Octets → Except Fault CompressedBody

/-- `BodyInflator`. -/
structure BodyInflator where
  /-- Decompress a carried body. -/
  decompress : CompressedBody → Except Fault Octets

/-- `EncryptedBody`. -/
structure EncryptedBody where
  /-- The content-encryption algorithm. -/
  algorithmOid : String
  /-- The envelope. -/
  envelopeDer : Octets
  /-- The ciphertext. -/
  ciphertext : Octets
  deriving DecidableEq, Repr

/-- `BodyEncryptor`. -/
structure BodyEncryptor where
  /-- Seal a body of a content type. -/
  encrypt : Octets → Option String → Except Fault EncryptedBody

/-- `BodyDecryptor`. -/
structure BodyDecryptor where
  /-- Open the sealed pieces a frame carries. -/
  decrypt : EncryptedBody → Except Fault Octets

/-- `FrameVerifier`. -/
structure FrameVerifier where
  /-- Verify the signature of a frame, given its octets. -/
  verifyFrame : Octets → Except Fault Unit

/-- `Signatory`. -/
structure Signatory where
  /-- The signature algorithm. -/
  signatureAlgorithmOid : String
  /-- The digest the signature algorithm names. -/
  digestAlgorithmOid : String
  /-- The verify half, when the signer can derive it. -/
  verifier : Option FrameVerifier
  /-- The subject key identifier. -/
  signerId : Except Fault Octets
  /-- Sign a prehash. -/
  signPrehash : Octets → Except Fault Octets

/-- `MessageCodec<T>`; a `PayloadCodec<T>` has the same shape. -/
structure MessageCodec (T : Type) where
  /-- The content type. -/
  contentOid : Option String
  /-- Encode a message as a body. -/
  encode : T → Except Fault Octets
  /-- Decode and validate a body. -/
  decode : Octets → Except Fault T

/-- What the codec encodes it decodes as it was. -/
def MessageCodec.Inverse {T : Type} (codec : MessageCodec T) : Prop :=
  ∀ {m body}, codec.encode m = .ok body → codec.decode body = .ok m

/-- `wrapped`: a payload codec in the opaque body. -/
def wrapped {T : Type} (L : Library) (inner : MessageCodec T) : MessageCodec T where
  contentOid := inner.contentOid
  encode m := do wasm L (bodyPreimage L (← inner.encode m))
  decode bodyDer := do inner.decode (← wasm L (decodeBody L bodyDer))

/-- `Opaque`: raw octets in the opaque body. -/
def opaqueCodec (L : Library) : MessageCodec Octets := wrapped L ⟨none, .ok, .ok⟩

/-! ### Fields -/

/-- `DigestInfo` of the client: a carried digest. -/
structure CarriedDigest where
  /-- The digest algorithm. -/
  algorithmOid : String
  /-- The octets. -/
  digest : Octets
  deriving DecidableEq, Repr

/-- `ConfidentialityInfo`. -/
structure ConfidentialityInfo where
  /-- The content-encryption algorithm. -/
  algorithmOid : String
  /-- The envelope. -/
  envelopeDer : Octets
  deriving DecidableEq, Repr

/-- `CompactnessInfo`. -/
structure CompactnessInfo where
  /-- The compression algorithm. -/
  algorithmOid : String
  /-- Its parameters. -/
  parametersDer : Option Octets
  /-- The type of the uncompressed body. -/
  contentOid : Option String
  deriving DecidableEq, Repr

/-- `SignatureInfo`. -/
structure SignatureInfo where
  /-- The signature algorithm. -/
  algorithmOid : String
  /-- The digest the signature is over. -/
  digestAlgorithmOid : String
  /-- The octets. -/
  signature : Octets
  deriving DecidableEq, Repr

/-- `FrameMatrix`, and `MatrixSpec` of the builder. -/
structure FrameMatrix where
  /-- The dimension. -/
  n : JsNumber
  /-- The octets. -/
  data : Octets
  deriving DecidableEq

/-- `FrameFields`. -/
structure FrameFields where
  /-- The protocol version. -/
  version : Version
  /-- The message identifier. -/
  id : Octets
  /-- The order stamp. -/
  order : ℤ
  /-- The body. -/
  bodyDer : Octets
  /-- The priority. -/
  priority : Option MessagePriority
  /-- Time to live. -/
  lifetime : Option ℤ
  /-- The parent frame. -/
  previousFrame : Option CarriedDigest
  /-- The control matrix. -/
  matrix : Option FrameMatrix
  /-- The commitment. -/
  messageIntegrity : Option CarriedDigest
  /-- The witness. -/
  frameIntegrity : Option CarriedDigest
  /-- How the body was compressed. -/
  compactness : Option CompactnessInfo
  /-- How the body was sealed. -/
  confidentiality : Option ConfidentialityInfo
  /-- The signature. -/
  signature : Option SignatureInfo

/-- `versionFromOrdinal`. -/
def versionFromOrdinal : ℕ → Option Version
  | 0 => some .v0
  | 1 => some .v1
  | 2 => some .v2
  | 3 => some .v3
  | _ => none

/-- `priorityFromOrdinal`. -/
def priorityFromOrdinal : ℕ → Option MessagePriority
  | 0 => some .lowEffort
  | 1 => some .standard
  | 2 => some .highThroughput
  | 3 => some .lowLatency
  | 4 => some .expedited
  | 5 => some .networkControl
  | _ => none

/-- `digestInfoFrom`. -/
def digestInfoFrom : Option String → Option Octets → Option CarriedDigest
  | some algorithmOid, some digest => some ⟨algorithmOid, digest⟩
  | _, _ => none

/-- `matrixOf`. -/
def matrixOf (inspected : FrameSummary) : Option FrameMatrix :=
  match inspected.matrixN, inspected.matrixData with
  | some n, some data => some ⟨.finite n.toNat, data⟩
  | _, _ => none

/-- `compactnessOf`. -/
def compactnessOf (inspected : FrameSummary) : Option CompactnessInfo :=
  match inspected.compactnessAlgorithmOid with
  | none => none
  | some algorithmOid =>
      some ⟨algorithmOid, inspected.compactnessParametersDer, inspected.compactnessContentOid⟩

/-- `confidentialityOf`. -/
def confidentialityOf (inspected : FrameSummary) : Option ConfidentialityInfo :=
  match inspected.confidentialityAlgorithmOid, inspected.confidentialityEnvelopeDer with
  | some algorithmOid, some envelopeDer => some ⟨algorithmOid, envelopeDer⟩
  | _, _ => none

/-- `signatureOf`. -/
def signatureOf (inspected : FrameSummary) : Option SignatureInfo :=
  match inspected.signatureAlgorithmOid, inspected.signatureDigestAlgorithmOid,
      inspected.signature with
  | some algorithmOid, some digestAlgorithmOid, some signature =>
      some ⟨algorithmOid, digestAlgorithmOid, signature⟩
  | _, _, _ => none

/-- The priority of an inspected frame, when its ordinal is known. -/
def priorityOf : Option ℕ → Except Fault (Option MessagePriority)
  | none => .ok none
  | some ordinal =>
      match priorityFromOrdinal ordinal with
      | some priority => .ok (some priority)
      | none => .error (.internal "UNKNOWN_PRIORITY"
          s!"the wasm module returned an unknown priority ordinal: {ordinal}")

/-- `fieldsOf`. -/
def fieldsOf (inspected : FrameSummary) : Except Fault FrameFields :=
  match versionFromOrdinal inspected.version with
  | none => .error (.internal "UNKNOWN_VERSION"
      s!"the wasm module returned an unknown version ordinal: {inspected.version}")
  | some version =>
      (priorityOf inspected.priority).map fun priority =>
        { version
          id := inspected.id
          order := inspected.order
          bodyDer := inspected.bodyDer
          priority
          lifetime := inspected.lifetime.map fun seconds => (seconds : ℤ)
          previousFrame :=
            digestInfoFrom inspected.previousHashAlgorithmOid inspected.previousHashDigest
          matrix := matrixOf inspected
          messageIntegrity :=
            digestInfoFrom inspected.messageIntegrityAlgorithmOid inspected.messageIntegrityDigest
          frameIntegrity :=
            digestInfoFrom inspected.frameIntegrityAlgorithmOid inspected.frameIntegrityDigest
          compactness := compactnessOf inspected
          confidentiality := confidentialityOf inspected
          signature := signatureOf inspected }

variable (L : Library)

/-- `decoded`: the fields the getters show.  The cache changes nothing, as the octets never
change. -/
def decoded (der : Octets) : Except Fault FrameFields := do
  fieldsOf (← wasm L (inspectFrame L der))

/-! ### Integrity -/

/-- `IntegrityVerdict`. -/
inductive IntegrityVerdict
  /-- The digest is the one carried. -/
  | verified
  /-- The frame carries none. -/
  | absent
  /-- The frame carries one of another algorithm. -/
  | algorithmMismatch
  /-- The digest is another. -/
  | mismatch
  deriving DecidableEq, Repr

/-- `digestsEqual`: the differences of all octets, collected. -/
def digestsEqual (left right : Octets) : Bool :=
  if left.length ≠ right.length then false
  else (List.zipWith (· ^^^ ·) left right).foldl (· ||| ·) 0 == 0

/-- `verdictOf`. -/
def verdictOf (carried : Option CarriedDigest) (hasher : Hasher)
    (preimage : Except TightBeamError Octets) : Except Fault IntegrityVerdict :=
  match carried with
  | none => .ok .absent
  | some carried =>
      if carried.algorithmOid ≠ hasher.algorithmOid then .ok .algorithmMismatch
      else do
        let recomputed ← hasher.digest (← wasm L preimage)
        if digestsEqual recomputed carried.digest then .ok .verified else .ok .mismatch

/-- `frameIntegrityVerdict`. -/
def frameIntegrityVerdict (der : Octets) (hasher : Hasher) : Except Fault IntegrityVerdict := do
  verdictOf L (← decoded L der).frameIntegrity hasher (witnessInput L der)

/-- `messageCommitmentVerdict`, over the carried body. -/
def messageCommitmentVerdict (der salt : Octets) (hasher : Hasher) :
    Except Fault IntegrityVerdict := do
  let fields ← decoded L der
  verdictOf L fields.messageIntegrity hasher (commitmentPreimage L salt fields.bodyDer)

/-! ### Bodies -/

section Bodies

variable {T : Type} (der : Octets) (codec : MessageCodec T)

/-- A rejection of the frame as a whole. -/
def frameError (code message : String) : Fault := .validation code [⟨"frame", message⟩]

/-- What an inflator is handed of a carried body. -/
def CompactnessInfo.body (compactness : CompactnessInfo) (data : Octets) : CompressedBody :=
  ⟨compactness.algorithmOid, compactness.parametersDer, compactness.contentOid, data⟩

/-- `message`. -/
def message : Except Fault T := do
  let fields ← decoded L der
  if fields.confidentiality.isSome then
    .error (frameError "FRAME_CONFIDENTIAL"
      "The frame body is encrypted. Decode it with decryptMessage")
  else if fields.compactness.isSome then
    .error (frameError "FRAME_COMPRESSED"
      "The frame body is compressed. Decode it with inflateMessage")
  else codec.decode fields.bodyDer

/-- `inflateMessage`. -/
def inflateMessage (inflator : BodyInflator) : Except Fault T := do
  let fields ← decoded L der
  if fields.confidentiality.isSome then
    .error (frameError "FRAME_CONFIDENTIAL"
      "The frame body is encrypted. Decode it with decryptMessage")
  else
    match fields.compactness with
    | none => .error (frameError "FRAME_NOT_COMPRESSED" "The frame body is not compressed")
    | some compactness => do
        codec.decode (← inflator.decompress (compactness.body fields.bodyDer))

/-- `inflate`: decompress when the frame carries compactness info. -/
def inflate (plaintext : Octets) : Option CompactnessInfo → Option BodyInflator →
    Except Fault Octets
  | some compactness, some inflator => inflator.decompress (compactness.body plaintext)
  | _, _ => .ok plaintext

/-- `decryptMessage`. -/
def decryptMessage (decryptor : BodyDecryptor) (inflator : Option BodyInflator) :
    Except Fault T := do
  let fields ← decoded L der
  match fields.confidentiality with
  | none => .error (frameError "FRAME_NOT_CONFIDENTIAL" "The frame body is not encrypted")
  | some confidentiality =>
      if fields.compactness.isSome ∧ inflator.isNone then
        .error (frameError "MISSING_INFLATOR"
          "The frame body is compressed. decryptMessage needs an inflator.")
      else do
        let plaintext ← decryptor.decrypt
          ⟨confidentiality.algorithmOid, confidentiality.envelopeDer, fields.bodyDer⟩
        codec.decode (← inflate plaintext fields.compactness inflator)

end Bodies

variable {L}

/-- A payload comes back from the opaque body. -/
theorem wrapped_inverse {T : Type} (hany : L.any.Lawful) {inner : MessageCodec T}
    (hinner : inner.Inverse) : (wrapped L inner).Inverse := by
  intro m body h
  obtain ⟨payload, hpayload, hbody⟩ := bind_ok h
  have hread := sequenceFromDer_of_sequenceDer hany (mapError_ok hbody)
  have hdecode : decodeBody L body = .ok payload := by
    rw [decodeBody, hread]
    rfl
  show (wasm L (decodeBody L body)).bind inner.decode = _
  rw [hdecode]
  exact hinner hpayload

theorem opaqueCodec_inverse (hany : L.any.Lawful) : (opaqueCodec L).Inverse := by
  apply wrapped_inverse hany
  intro m body h
  cases h
  rfl

/-! ### What the getters show -/

theorem digestsEqual_self (digest : Octets) : digestsEqual digest digest = true := by
  have hzero : ∀ acc : UInt8,
      (List.zipWith (· ^^^ ·) digest digest).foldl (· ||| ·) acc = acc := by
    induction digest with
    | nil => exact fun _ => rfl
    | cons x digest ih =>
      intro acc
      rw [List.zipWith_cons_cons, List.foldl_cons, UInt8.xor_self, UInt8.or_zero, ih]
  rw [digestsEqual, if_neg (not_not.mpr rfl), hzero]
  rfl

/-- The digest of the hasher over the preimage is verified, when its algorithm is spelled as the
hasher spells it. -/
theorem verdictOf_digest {hasher : Hasher} {preimage : Except TightBeamError Octets}
    {oid : String} {octets digest : Octets} (hpreimage : preimage = .ok octets)
    (hdigest : hasher.digest octets = .ok digest) :
    verdictOf L (some ⟨oid, digest⟩) hasher preimage =
      .ok (if oid = hasher.algorithmOid then .verified else .algorithmMismatch) := by
  rw [verdictOf]
  by_cases hoid : oid = hasher.algorithmOid
  · rw [if_neg (not_not.mpr hoid), if_pos hoid, hpreimage]
    show (hasher.digest octets).bind _ = _
    rw [hdigest]
    exact if_pos (digestsEqual_self digest)
  · rw [if_pos hoid, if_neg hoid]

/-- A digest as the getters show it. -/
def DigestInfo.shown (L : Library) (info : DigestInfo) : CarriedDigest :=
  ⟨L.oidText info.algorithm.oid, info.digest⟩

/-- The fields of a frame as the getters show them, with the encodings of the compression
parameters and of the envelope. -/
def Frame.shown (L : Library) (f : Frame) (parametersDer envelopeDer : Option Octets) :
    FrameFields where
  version := f.version
  id := f.metadata.id
  order := f.metadata.order
  bodyDer := f.message
  priority := f.metadata.priority
  lifetime := f.metadata.lifetime.map fun seconds => (seconds : ℤ)
  previousFrame := f.metadata.previousFrame.map (DigestInfo.shown L)
  matrix := f.metadata.matrix.map fun m => ⟨.finite m.n.toNat, m.data⟩
  messageIntegrity := f.metadata.integrity.map (DigestInfo.shown L)
  frameIntegrity := f.integrity.map (DigestInfo.shown L)
  compactness := f.metadata.compactness.map fun info =>
    ⟨L.oidText info.compressionAlg.oid, parametersDer, some (L.oidText info.econtentType)⟩
  confidentiality := f.metadata.confidentiality.bind fun envelope =>
    envelopeDer.map fun der => ⟨L.oidText envelope.contentEncAlg, der⟩
  signature := f.nonrepudiation.map fun info =>
    ⟨L.oidText info.signatureAlgorithm, L.oidText info.digestAlg, info.signature⟩

theorem priorityOf_ordinal (priority : Option MessagePriority) :
    priorityOf (priority.map MessagePriority.ordinal) = .ok priority := by
  cases priority with
  | none => rfl
  | some priority => cases priority <;> rfl

theorem versionFromOrdinal_ordinal (version : Version) :
    versionFromOrdinal version.ordinal = some version := by
  cases version <;> rfl

theorem digestInfoFrom_shown (info : Option DigestInfo) :
    digestInfoFrom (info.map fun info => L.oidText info.algorithm.oid)
      (info.map DigestInfo.digest) = info.map (DigestInfo.shown L) := by
  cases info <;> rfl

/-- **The getters show the fields of the frame.** -/
theorem decoded_of_fromDer {der : Octets} {f : Frame} {parametersDer envelopeDer : Option Octets}
    (hf : L.fromDer der = .ok f)
    (hparameters : transpose L.any.write
      (f.metadata.compactness.bind fun info => info.compressionAlg.parameters) = .ok parametersDer)
    (henvelope : transpose L.envelopeDer f.metadata.confidentiality = .ok envelopeDer) :
    decoded L der = .ok (f.shown L parametersDer envelopeDer) := by
  obtain ⟨version, ⟨id, order, compactness, integrity, confidentiality, priority, lifetime,
    previousFrame, matrix⟩, body, witness, signer⟩ := f
  simp only [decoded, wasm, inspectFrame, hf, hparameters, henvelope, Except.bind, Except.mapError,
    bind, fieldsOf, versionFromOrdinal_ordinal, priorityOf_ordinal, Except.map,
    digestInfoFrom_shown]
  congr 1
  simp only [Frame.shown, FrameFields.mk.injEq, true_and]
  refine ⟨rfl, ?_, ?_, ?_, ?_⟩
  · cases matrix <;> rfl
  · cases compactness <;> rfl
  · cases confidentiality with
    | none => rfl
    | some envelope =>
      obtain ⟨der, -, rfl⟩ := map_ok henvelope
      rfl
  · cases signer <;> rfl

end Ws
end TightbeamExt
