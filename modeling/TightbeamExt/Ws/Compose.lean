import TightbeamExt.Ws.Builder
import TightbeamExt.Ws.Preimage

/-!
# Composing frames

The codec runs a specification through the layers in a fixed order: the structural frame, the
commitment to the body, compression, encryption, the witness and the signature.  Each layer
rewrites octets that the ones before it made.

## Main definitions

* `compose` — the layers, in order.
* `build` — the checks, the layers, and the version assertion.
* `ReadsBack` — the getters of a frame show what the specification asked for.

## Main results

* `fromDer_compose` — the composed frame, as the record of its layers.
* `composed_frame_reads_back` — **what was specified is read back.**
-/

namespace TightbeamExt
namespace Ws

open Asn (Octets JsNumber)

variable (L : Library)

/-! ### The wasm boundary -/

/-- A bigint as a `u64`. -/
def toU64 (n : ℤ) : ℕ := (n % 2 ^ 64).toNat

/-- A number as a `u8`. -/
def toU8 : JsNumber → UInt8
  | .finite q => UInt8.ofNat (q.num.tdiv q.den % 256).toNat
  | .notFinite => 0

/-- `oid_from`. -/
def oidFrom (dotted path : String) : Except Fault Oid :=
  match L.parseOid dotted with
  | some oid => .ok oid
  | none => .error (.error s!"{path} is not a valid dotted OID")

/-- `digest_info`. -/
def digestInfo (parent : CarriedDigest) : Except Fault DigestInfo := do
  let oid ← oidFrom L parent.algorithmOid "previousHash.algorithmOid"
  .ok ⟨algorithm oid, parent.digest⟩

/-- `withMatrix` of the composer. -/
def composerMatrix (matrix : FrameMatrix) : Except Fault Matrix :=
  match L.fromRowMajor (toU8 matrix.n) matrix.data with
  | some m => .ok m
  | none => .error (.error "matrix data length must equal n*n")

/-! ### Layers -/

/-- `bodyDerOf`: the encoded message, or the empty opaque body. -/
def bodyDerOf (spec : FrameSpec) : Except Fault Octets :=
  match spec.message with
  | none => wasm L (bodyPreimage L [])
  | some slot => slot.encodeBody

/-- `composeStructural`: the metadata only, at the effective version. -/
def composeStructural (spec : FrameSpec) (bodyDer : Octets) : Except Fault Octets := do
  let previousHash ← transpose (digestInfo L) spec.previousHash
  let matrix ← transpose (composerMatrix L) spec.matrix
  let config : FrameConfig :=
    { version := some (effectiveVersion spec)
      id := spec.id.getD []
      order := (spec.order.map toU64).getD 0
      message := bodyDer
      priority := spec.priority
      lifetime := spec.lifetime.map toU64
      previousHash
      matrix }
  wasm L (config.build L)

/-- The commitment to the body. -/
def commitBody (spec : FrameSpec) (bodyDer der : Octets) : Except Fault Octets :=
  match spec.messageIntegrity with
  | none => .ok der
  | some ⟨hasher, salt⟩ => do
      let preimage ← wasm L (commitmentPreimage L (salt.getD []) bodyDer)
      let digest ← hasher.digest preimage
      let oid ← oidFrom L hasher.algorithmOid "messageIntegrity.algorithmOid"
      wasm L (setMessageIntegrity L der oid digest)

/-- Compression; also gives the octets to seal. -/
def compressBody (spec : FrameSpec) (bodyDer der : Octets) : Except Fault (Octets × Octets) :=
  match spec.compressor with
  | none => .ok (der, bodyDer)
  | some compressor => do
      let compressed ← compressor.compress bodyDer
      let contentOid ← transpose (oidFrom L · "contentOid") compressed.contentOid
      let algorithmOid ← oidFrom L compressed.algorithmOid "compactness.algorithmOid"
      let der ← wasm L (setCompactness L der contentOid algorithmOid compressed.parametersDer
        compressed.data)
      .ok (der, compressed.data)

/-- The content type an encryptor is told. -/
def FrameSpec.sealedOid (spec : FrameSpec) : Option String :=
  spec.contentOid.or (spec.message.bind MessageSlot.contentOid)

/-- Encryption. -/
def sealBody (spec : FrameSpec) (sealInput der : Octets) : Except Fault Octets :=
  match spec.encryptor with
  | none => .ok der
  | some encryptor => do
      let sealed ← encryptor.encrypt sealInput spec.sealedOid
      wasm L (setConfidentiality L der sealed.envelopeDer sealed.ciphertext)

/-- The witness. -/
def witnessFrame (spec : FrameSpec) (der : Octets) : Except Fault Octets :=
  match spec.frameIntegrity with
  | none => .ok der
  | some hasher => do
      let digest ← hasher.digest (← wasm L (witnessInput L der))
      let oid ← oidFrom L hasher.algorithmOid "frameIntegrity.algorithmOid"
      wasm L (attachWitness L der oid digest)

/-- `PROFILE_OIDS.ecdsaWithSha3_256`. -/
def ecdsaWithSha3256 : String := "2.16.840.1.101.3.4.3.10"

/-- `PROFILE_OIDS.sha3_256`. -/
def sha3256 : String := "2.16.840.1.101.3.4.2.8"

/-- `requireProfileSigner`. -/
def requireProfileSigner (signer : Signatory) : Except Fault Unit :=
  if signer.signatureAlgorithmOid ≠ ecdsaWithSha3256 ∨ signer.digestAlgorithmOid ≠ sha3256 then
    .error (.validation "ALGORITHM_MISMATCH" [⟨"signer.signatureAlgorithmOid", "Signs with " ++
      signer.signatureAlgorithmOid ++ ", but a frame carries " ++ ecdsaWithSha3256⟩])
  else .ok ()

/-- The signature. -/
def signFrame (spec : FrameSpec) (der : Octets) : Except Fault Octets :=
  match spec.signer with
  | none => .ok der
  | some signer => do
      let _ ← requireProfileSigner signer
      let signerId ← signer.signerId
      let signature ← signer.signPrehash (← wasm L (signingPrehash L der signerId))
      wasm L (attachSignature L der signature signerId)

/-- `compose`. -/
def compose (spec : FrameSpec) : Except Fault Octets := do
  let bodyDer ← bodyDerOf L spec
  let der ← composeStructural L spec bodyDer
  let der ← commitBody L spec bodyDer der
  let (der, sealInput) ← compressBody L spec bodyDer der
  let der ← sealBody L spec sealInput der
  let der ← witnessFrame L spec der
  signFrame L spec der

/-- `build`: check the specification, compose, and check the asserted version. -/
def build (spec : FrameSpec) : Except Fault Octets := do
  let issues := collectIssues L spec
  if issues ≠ [] then .error (.validation "FRAME_SPEC" issues)
  else do
    let der ← compose L spec
    match spec.assertedVersion with
    | none => .ok der
    | some asserted => do
        let fields ← decoded L der
        let expected := asserted.ordinal
        let built := fields.version.ordinal
        if fields.version ≠ asserted then
          .error (.validation "FRAME_SPEC" [⟨"assertedVersion",
            s!"Version assertion failed: asserted V{expected}, but the codec built V{built}"⟩])
        else .ok der

/-! ### The layers of a frame -/

/-- The commitment a frame has. -/
def Committed (spec : FrameSpec) (bodyDer : Octets) (integrity : Option DigestInfo) : Prop :=
  match spec.messageIntegrity with
  | none => integrity = none
  | some ⟨hasher, salt⟩ => ∃ preimage digest oid,
      commitmentPreimage L (salt.getD []) bodyDer = .ok preimage ∧
      hasher.digest preimage = .ok digest ∧ L.parseOid hasher.algorithmOid = some oid ∧
      integrity = some ⟨algorithm oid, digest⟩

/-- The compactness info a frame has, and the octets after compression. -/
def Compressed (spec : FrameSpec) (bodyDer : Octets) (compactness : Option CompressedData)
    (sealInput : Octets) : Prop :=
  match spec.compressor with
  | none => compactness = none ∧ sealInput = bodyDer
  | some compressor => ∃ compressed contentOid algorithmOid parameters,
      compressor.compress bodyDer = .ok compressed ∧
      transpose (oidFrom L · "contentOid") compressed.contentOid = .ok contentOid ∧
      L.parseOid compressed.algorithmOid = some algorithmOid ∧
      transpose L.any.write parameters = .ok compressed.parametersDer ∧
      compactness = some ⟨0, ⟨algorithmOid, parameters⟩, contentOid.getD .data, none⟩ ∧
      sealInput = compressed.data

/-- The envelope a frame has, and the body it carries. -/
def Sealed (spec : FrameSpec) (sealInput : Octets) (confidentiality : Option AuthEnvelopedData)
    (carried : Octets) : Prop :=
  match spec.encryptor with
  | none => confidentiality = none ∧ carried = sealInput
  | some encryptor => ∃ sealed envelope,
      encryptor.encrypt sealInput spec.sealedOid = .ok sealed ∧
      L.parseEnvelope sealed.envelopeDer = .ok envelope ∧
      confidentiality = some envelope ∧ carried = sealed.ciphertext

/-- The witness a frame has. -/
def Witnessed (spec : FrameSpec) (version : Version) (metadata : Metadata)
    (integrity : Option DigestInfo) : Prop :=
  match spec.frameIntegrity with
  | none => integrity = none
  | some hasher => ∃ preimage digest oid, witnessOf L version metadata = .ok preimage ∧
      hasher.digest preimage = .ok digest ∧ L.parseOid hasher.algorithmOid = some oid ∧
      integrity = some ⟨algorithm oid, digest⟩

/-- The signature a frame has: of the profile, over the digest it is checked against. -/
def Signed (spec : FrameSpec) (der : Octets) (nonrepudiation : Option SignerInfo) : Prop :=
  match spec.signer with
  | none => nonrepudiation = none
  | some signer => ∃ info prehash, signaturePrehash L der = .ok prehash ∧
      signer.signPrehash prehash = .ok info.signature ∧
      L.oidText info.signatureAlgorithm = signer.signatureAlgorithmOid ∧
      L.oidText info.digestAlg = signer.digestAlgorithmOid ∧ nonrepudiation = some info

variable {L}

theorem wasm_ok {α : Type} {x : Except TightBeamError α} {a : α} (h : wasm L x = .ok a) :
    x = .ok a := mapError_ok h

theorem oidFrom_ok {dotted path : String} {oid : Oid} (h : oidFrom L dotted path = .ok oid) :
    L.parseOid dotted = some oid := by
  unfold oidFrom at h
  split at h
  · next hoid => cases h; exact hoid
  · cases h

/-- The structural frame. -/
theorem fromDer_composeStructural (hL : L.Lawful) {spec : FrameSpec} {bodyDer der : Octets}
    (h : composeStructural L spec bodyDer = .ok der) :
    ∃ previousHash matrix, transpose (digestInfo L) spec.previousHash = .ok previousHash ∧
      transpose (composerMatrix L) spec.matrix = .ok matrix ∧
      L.fromDer der = .ok ⟨effectiveVersion spec, ⟨spec.id.getD [], (spec.order.map toU64).getD 0,
        none, none, none, spec.priority, spec.lifetime.map toU64, previousHash, matrix⟩, bodyDer,
        none, none⟩ := by
  obtain ⟨previousHash, hprevious, h⟩ := bind_ok h
  obtain ⟨matrix, hmatrix, h⟩ := bind_ok h
  exact ⟨previousHash, matrix, hprevious, hmatrix, fromDer_build hL (wasm_ok h)⟩

theorem fromDer_commitBody (hL : L.Lawful) {spec : FrameSpec} {bodyDer der der' : Octets}
    {f : Frame} (hf : L.fromDer der = .ok f) (hnone : f.metadata.integrity = none)
    (h : commitBody L spec bodyDer der = .ok der') :
    ∃ integrity, Committed L spec bodyDer integrity ∧
      L.fromDer der' = .ok { f with metadata := { f.metadata with integrity } } := by
  unfold commitBody at h
  unfold Committed
  split at h
  · cases h
    refine ⟨none, rfl, ?_⟩
    rw [hf, ← hnone]
  · next hasher salt _ =>
    obtain ⟨preimage, hpreimage, h⟩ := bind_ok h
    obtain ⟨digest, hdigest, h⟩ := bind_ok h
    obtain ⟨oid, hoid, h⟩ := bind_ok h
    refine ⟨_, ?_, fromDer_setMessageIntegrity hL hf (wasm_ok h)⟩
    exact ⟨preimage, digest, oid, wasm_ok hpreimage, hdigest, oidFrom_ok hoid, rfl⟩

theorem fromDer_compressBody (hL : L.Lawful) {spec : FrameSpec} {bodyDer der : Octets}
    {out : Octets × Octets} {f : Frame} (hf : L.fromDer der = .ok f)
    (hnone : f.metadata.compactness = none) (hbody : f.message = bodyDer)
    (h : compressBody L spec bodyDer der = .ok out) :
    ∃ compactness, Compressed L spec bodyDer compactness out.2 ∧
      L.fromDer out.1 = .ok { f with
        metadata := { f.metadata with compactness }, message := out.2 } := by
  unfold compressBody at h
  unfold Compressed
  split at h
  · cases h
    refine ⟨none, ⟨rfl, rfl⟩, ?_⟩
    rw [hf, ← hnone, ← hbody]
  · next compressor _ =>
    obtain ⟨compressed, hcompressed, h⟩ := bind_ok h
    obtain ⟨contentOid, hcontent, h⟩ := bind_ok h
    obtain ⟨algorithmOid, halgorithm, h⟩ := bind_ok h
    obtain ⟨der', hder, h⟩ := bind_ok h
    cases h
    obtain ⟨parameters, hparameters, hf'⟩ := fromDer_setCompactness hL hf (wasm_ok hder)
    refine ⟨_, ?_, hf'⟩
    exact ⟨compressed, contentOid, algorithmOid, parameters, hcompressed, hcontent,
      oidFrom_ok halgorithm, hparameters, rfl, rfl⟩

theorem fromDer_sealBody (hL : L.Lawful) {spec : FrameSpec} {sealInput der der' : Octets}
    {f : Frame} (hf : L.fromDer der = .ok f) (hnone : f.metadata.confidentiality = none)
    (hbody : f.message = sealInput) (h : sealBody L spec sealInput der = .ok der') :
    ∃ confidentiality carried, Sealed L spec sealInput confidentiality carried ∧
      L.fromDer der' = .ok { f with
        metadata := { f.metadata with confidentiality }, message := carried } := by
  unfold sealBody at h
  unfold Sealed
  split at h
  · cases h
    refine ⟨none, sealInput, ⟨rfl, rfl⟩, ?_⟩
    rw [hf, ← hnone, ← hbody]
  · next encryptor _ =>
    obtain ⟨sealed, hsealed, h⟩ := bind_ok h
    obtain ⟨envelope, henvelope, hf'⟩ := fromDer_setConfidentiality hL hf (wasm_ok h)
    refine ⟨some envelope, sealed.ciphertext, ?_, hf'⟩
    exact ⟨sealed, envelope, hsealed, henvelope, rfl, rfl⟩

theorem fromDer_witnessFrame (hL : L.Lawful) {spec : FrameSpec} {der der' : Octets} {f : Frame}
    (hf : L.fromDer der = .ok f) (hnone : f.integrity = none)
    (h : witnessFrame L spec der = .ok der') :
    ∃ integrity, Witnessed L spec f.version f.metadata integrity ∧
      L.fromDer der' = .ok { f with integrity } := by
  unfold witnessFrame at h
  unfold Witnessed
  split at h
  · cases h
    refine ⟨none, rfl, ?_⟩
    rw [hf, ← hnone]
  · next hasher _ =>
    obtain ⟨preimage, hpreimage, h⟩ := bind_ok h
    obtain ⟨digest, hdigest, h⟩ := bind_ok h
    obtain ⟨oid, hoid, h⟩ := bind_ok h
    refine ⟨_, ?_, fromDer_attachWitness hL hf (wasm_ok h)⟩
    exact ⟨preimage, digest, oid, (witnessInput_eq hL hf).symm.trans (wasm_ok hpreimage), hdigest,
      oidFrom_ok hoid, rfl⟩

theorem requireProfileSigner_ok {signer : Signatory} {u : Unit}
    (h : requireProfileSigner signer = .ok u) :
    signer.signatureAlgorithmOid = ecdsaWithSha3256 ∧ signer.digestAlgorithmOid = sha3256 := by
  unfold requireProfileSigner at h
  split at h
  · cases h
  · next hprofile =>
    rw [not_or, not_not, not_not] at hprofile
    exact hprofile

theorem fromDer_signFrame (hL : L.Lawful) {spec : FrameSpec} {der der' : Octets} {f : Frame}
    (hf : L.fromDer der = .ok f) (hnone : f.nonrepudiation = none)
    (h : signFrame L spec der = .ok der') :
    ∃ nonrepudiation, Signed L spec der' nonrepudiation ∧
      L.fromDer der' = .ok { f with nonrepudiation } := by
  unfold signFrame at h
  unfold Signed
  split at h
  · cases h
    refine ⟨none, rfl, ?_⟩
    rw [hf, ← hnone]
  · next signer _ =>
    obtain ⟨u, hprofile, h⟩ := bind_ok h
    obtain ⟨signerId, hsignerId, h⟩ := bind_ok h
    obtain ⟨prehash, hprehash, h⟩ := bind_ok h
    obtain ⟨signature, hsignature, h⟩ := bind_ok h
    obtain ⟨info, hf', hinfo, hsigAlg, hdigestAlg, hcheck⟩ :=
      fromDer_attachSignature hL hf (wasm_ok h)
    obtain ⟨hsigOid, hdigestOid⟩ := requireProfileSigner_ok hprofile
    refine ⟨some info, ?_, hf'⟩
    refine ⟨info, prehash, hcheck.trans (wasm_ok hprehash), ?_, ?_, ?_, rfl⟩
    · rw [hinfo, hsignature]
    · rw [hsigOid, hsigAlg]
      rfl
    · rw [hdigestOid, hdigestAlg]
      rfl

/-- **The composed frame** is the record of its layers. -/
theorem fromDer_compose (hL : L.Lawful) {spec : FrameSpec} {der : Octets}
    (h : compose L spec = .ok der) :
    ∃ bodyDer sealInput carried previousHash matrix integrity compactness confidentiality witness
        nonrepudiation,
      bodyDerOf L spec = .ok bodyDer ∧
      transpose (digestInfo L) spec.previousHash = .ok previousHash ∧
      transpose (composerMatrix L) spec.matrix = .ok matrix ∧
      Committed L spec bodyDer integrity ∧ Compressed L spec bodyDer compactness sealInput ∧
      Sealed L spec sealInput confidentiality carried ∧
      Witnessed L spec (effectiveVersion spec) ⟨spec.id.getD [], (spec.order.map toU64).getD 0,
        compactness, integrity, confidentiality, spec.priority, spec.lifetime.map toU64,
        previousHash, matrix⟩ witness ∧
      Signed L spec der nonrepudiation ∧
      L.fromDer der = .ok ⟨effectiveVersion spec, ⟨spec.id.getD [], (spec.order.map toU64).getD 0,
        compactness, integrity, confidentiality, spec.priority, spec.lifetime.map toU64,
        previousHash, matrix⟩, carried, witness, nonrepudiation⟩ := by
  obtain ⟨bodyDer, hbody, h⟩ := bind_ok h
  obtain ⟨der₀, hstructural, h⟩ := bind_ok h
  obtain ⟨der₁, hcommit, h⟩ := bind_ok h
  obtain ⟨⟨der₂, sealInput⟩, hcompress, h⟩ := bind_ok h
  obtain ⟨der₃, hseal, h⟩ := bind_ok h
  obtain ⟨der₄, hwitness, hsign⟩ := bind_ok h
  obtain ⟨previousHash, matrix, hprevious, hmatrix, hf₀⟩ :=
    fromDer_composeStructural hL hstructural
  obtain ⟨integrity, hcommitted, hf₁⟩ := fromDer_commitBody hL hf₀ rfl hcommit
  obtain ⟨compactness, hcompressed, hf₂⟩ := fromDer_compressBody hL hf₁ rfl rfl hcompress
  obtain ⟨confidentiality, carried, hsealed, hf₃⟩ := fromDer_sealBody hL hf₂ rfl rfl hseal
  obtain ⟨witness, hwitnessed, hf₄⟩ := fromDer_witnessFrame hL hf₃ rfl hwitness
  obtain ⟨nonrepudiation, hsigned, hf₅⟩ := fromDer_signFrame hL hf₄ rfl hsign
  exact ⟨bodyDer, sealInput, carried, previousHash, matrix, integrity, compactness,
    confidentiality, witness, nonrepudiation, hbody, hprevious, hmatrix, hcommitted, hcompressed,
    hsealed, hwitnessed, hsigned, hf₅⟩

/-! ### What is read back -/

/-- The compactness info a frame carries of a compressed body: the identifiers in the spelling of
the library, and `id-data` for a content type that is omitted. -/
def CompressedBody.info (L : Library) (compressed : CompressedBody) : CompactnessInfo :=
  ⟨L.spelled compressed.algorithmOid, compressed.parametersDer,
    some ((compressed.contentOid.map L.spelled).getD (L.oidText .data))⟩

/-- The inflator undoes the compressor, on the pieces a frame carries. -/
def Inflates (L : Library) (inflator : BodyInflator) (compressor : BodyCompressor) : Prop :=
  ∀ {bodyDer compressed}, compressor.compress bodyDer = .ok compressed →
    inflator.decompress ((compressed.info L).body compressed.data) = .ok bodyDer

/-- The decryptor undoes the encryptor, on the pieces a frame carries: the algorithm is the one
the envelope names. -/
def Opens (L : Library) (decryptor : BodyDecryptor) (encryptor : BodyEncryptor) : Prop :=
  ∀ {bodyDer contentOid sealed envelope}, encryptor.encrypt bodyDer contentOid = .ok sealed →
    L.parseEnvelope sealed.envelopeDer = .ok envelope →
    decryptor.decrypt ⟨L.oidText envelope.contentEncAlg, sealed.envelopeDer, sealed.ciphertext⟩ =
      .ok bodyDer

/-- The carried body, decrypted when it is sealed. -/
def decryptBody (fields : FrameFields) (decryptor : BodyDecryptor) : Except Fault Octets :=
  match fields.confidentiality with
  | some info => decryptor.decrypt ⟨info.algorithmOid, info.envelopeDer, fields.bodyDer⟩
  | none => .ok fields.bodyDer

/-- The carried body, decrypted when it is sealed and then decompressed when it is compressed. -/
def openBody (fields : FrameFields) (decryptor : BodyDecryptor) (inflator : BodyInflator) :
    Except Fault Octets := do
  let plaintext ← decryptBody fields decryptor
  match fields.compactness with
  | some info => inflator.decompress (info.body plaintext)
  | none => .ok plaintext

/-- The octets that are sealed: the body, compressed when a compressor is given. -/
def SealInput (spec : FrameSpec) (bodyDer sealInput : Octets) : Prop :=
  match spec.compressor with
  | none => sealInput = bodyDer
  | some compressor => ∃ compressed, compressor.compress bodyDer = .ok compressed ∧
      sealInput = compressed.data

/-- The getters of a frame show what the specification asked for, and its body is the encoded
message under the layers. -/
structure ReadsBack (L : Library) (spec : FrameSpec) (der bodyDer : Octets) (fields : FrameFields) :
    Prop where
  /-- The effective version. -/
  version : fields.version = effectiveVersion spec
  /-- The identifier. -/
  id : fields.id = spec.id.getD []
  /-- The order, when it is given. -/
  order : ∀ order, spec.order = some order → fields.order = order
  /-- The priority. -/
  priority : fields.priority = spec.priority
  /-- The lifetime. -/
  lifetime : fields.lifetime = spec.lifetime
  /-- The parent frame. -/
  previousFrame : fields.previousFrame = spec.previousHash.map fun parent =>
    { parent with algorithmOid := L.spelled parent.algorithmOid }
  /-- The control matrix. -/
  matrix : fields.matrix = spec.matrix
  /-- A commitment when one is asked for: that of the hasher over the body. -/
  messageIntegrity : match spec.messageIntegrity with
    | none => fields.messageIntegrity = none
    | some ⟨hasher, salt⟩ => ∃ preimage digest,
        commitmentPreimage L (salt.getD []) bodyDer = .ok preimage ∧
        hasher.digest preimage = .ok digest ∧
        fields.messageIntegrity = some ⟨L.spelled hasher.algorithmOid, digest⟩
  /-- A witness when one is asked for: that of the hasher over what is witnessed now.  It
  verifies, unless the hasher spells its algorithm in another way. -/
  frameIntegrity : match spec.frameIntegrity with
    | none => fields.frameIntegrity = none
    | some hasher => ∃ preimage digest, witnessInput L der = .ok preimage ∧
        hasher.digest preimage = .ok digest ∧
        fields.frameIntegrity = some ⟨L.spelled hasher.algorithmOid, digest⟩ ∧
        frameIntegrityVerdict L der hasher =
          .ok (if L.spelled hasher.algorithmOid = hasher.algorithmOid then .verified
            else .algorithmMismatch)
  /-- Compactness info when a compressor is given. -/
  compactness : match spec.compressor with
    | none => fields.compactness = none
    | some compressor => ∃ compressed, compressor.compress bodyDer = .ok compressed ∧
        fields.compactness = some (compressed.info L)
  /-- An envelope when an encryptor is given, under the algorithm it names. -/
  confidentiality : match spec.encryptor with
    | none => fields.confidentiality = none
    | some encryptor => ∃ sealInput sealed envelope, SealInput spec bodyDer sealInput ∧
        encryptor.encrypt sealInput spec.sealedOid = .ok sealed ∧
        L.parseEnvelope sealed.envelopeDer = .ok envelope ∧
        fields.confidentiality =
          some ⟨L.oidText envelope.contentEncAlg, sealed.envelopeDer⟩ ∧
        fields.bodyDer = sealed.ciphertext
  /-- A signature when a signatory is given, under its algorithms. -/
  signature : match spec.signer with
    | none => fields.signature = none
    | some signer => ∃ prehash signature, signaturePrehash L der = .ok prehash ∧
        signer.signPrehash prehash = .ok signature ∧
        fields.signature =
          some ⟨signer.signatureAlgorithmOid, signer.digestAlgorithmOid, signature⟩
  /-- Decrypted and then decompressed, the body is the encoded message. -/
  body : ∀ decryptor inflator,
    (∀ encryptor, spec.encryptor = some encryptor → Opens L decryptor encryptor) →
    (∀ compressor, spec.compressor = some compressor → Inflates L inflator compressor) →
    openBody fields decryptor inflator = .ok bodyDer
  /-- The spelling of the library names the same identifier, and is the text given when that has
  no needless zeros. -/
  spelling : ∀ text oid, L.parseOid text = some oid → L.parseOid (L.spelled text) = some oid ∧
    (isPlainOid text = true → L.spelled text = text)

/-- What was built is valid, and was composed. -/
theorem build_ok {spec : FrameSpec} {der : Octets} (h : build L spec = .ok der) :
    collectIssues L spec = [] ∧ compose L spec = .ok der := by
  rw [build] at h
  split at h
  · cases h
  · next hissues =>
    refine ⟨not_not.mp hissues, ?_⟩
    obtain ⟨built, hcompose, hassert⟩ := bind_ok h
    have hbuilt : built = der := by
      split at hassert
      · cases hassert; rfl
      · obtain ⟨fields, -, hversion⟩ := bind_ok hassert
        split at hversion
        · cases hversion
        · cases hversion; rfl
    rw [hcompose, hbuilt]

/-! ### Valid specifications -/

theorem toU64_cast {n : ℤ} (hmin : 0 ≤ n) (hmax : n ≤ u64Max) : (toU64 n : ℤ) = n := by
  unfold u64Max at hmax
  unfold toU64
  omega

theorem validateU64_nil {n : ℤ} {path : String} (h : validateU64 n path = []) :
    (toU64 n : ℤ) = n := by
  unfold validateU64 at h
  split at h
  · cases h
  · next hvalid => exact toU64_cast (by omega) (by omega)

/-- The dimension of a matrix survives the boundary. -/
theorem toU8_dimension {x : JsNumber} {n : ℕ} (h : JsNumber.dimension x = some n) :
    JsNumber.finite (toU8 x).toNat = x := by
  unfold JsNumber.dimension at h
  split at h
  · next q =>
    split at h
    · next hq =>
      obtain ⟨hden, hmin, hmax⟩ := hq
      have hq : (q.num : ℚ) = q := Rat.den_eq_one_iff q |>.mp hden
      have hmod : (q.num.tdiv q.den % 256).toNat = q.num.toNat := by
        rw [hden, Nat.cast_one, Int.tdiv_one]
        omega
      have hbyte : (toU8 (.finite q)).toNat = q.num.toNat := by
        rw [toU8, hmod, UInt8.toNat_ofNat']
        omega
      rw [hbyte]
      congr 1
      rw [← hq]
      have hnum : ((q.num.toNat : ℕ) : ℤ) = q.num := Int.toNat_of_nonneg (by omega)
      exact_mod_cast congrArg (fun z : ℤ => (z : ℚ)) hnum
    · cases h
  · cases h

/-- What the checks of a specification leave. -/
theorem collectIssues_nil {spec : FrameSpec} (h : collectIssues L spec = []) :
    spec.message ≠ none ∧ (∀ n, spec.order = some n → (toU64 n : ℤ) = n) ∧
      (∀ n, spec.lifetime = some n → (toU64 n : ℤ) = n) ∧
      ∀ m, spec.matrix = some m → JsNumber.finite (toU8 m.n).toNat = m.n := by
  unfold collectIssues at h
  simp only [List.append_eq_nil_iff] at h
  obtain ⟨⟨⟨⟨⟨⟨⟨hmessage, horder⟩, hlifetime⟩, -⟩, hmatrix⟩, -⟩, -⟩, -⟩ := h
  refine ⟨fun hnone => ?_, fun n hn => ?_, fun n hn => ?_, fun m hm => ?_⟩
  · rw [hnone] at hmessage
    cases hmessage
  · rw [hn] at horder
    exact validateU64_nil horder
  · rw [hn] at hlifetime
    exact validateU64_nil hlifetime
  · rw [hm] at hmatrix
    change validateMatrix L m = [] at hmatrix
    unfold validateMatrix at hmatrix
    split at hmatrix
    · cases hmatrix
    · next hdim => exact toU8_dimension hdim

/-! ### Getters of a composed frame -/

theorem transpose_ok {ε α β : Type} {f : α → Except ε β} {x : Option α} {y : Option β}
    (h : transpose f x = .ok y) :
    (x = none ∧ y = none) ∨ ∃ a b, x = some a ∧ f a = .ok b ∧ y = some b := by
  cases x with
  | none => cases h; exact .inl ⟨rfl, rfl⟩
  | some a =>
    obtain ⟨b, hb, rfl⟩ := map_ok h
    exact .inr ⟨a, b, rfl, hb, rfl⟩

theorem spelled_of_parseOid {text : String} {oid : Oid} (h : L.parseOid text = some oid) :
    L.spelled text = L.oidText oid := by
  rw [Library.spelled, h]
  rfl

/-- The parent link is shown as it was given. -/
theorem shown_previousHash {parent : Option CarriedDigest} {info : Option DigestInfo}
    (h : transpose (digestInfo L) parent = .ok info) :
    info.map (DigestInfo.shown L) = parent.map fun parent =>
      { parent with algorithmOid := L.spelled parent.algorithmOid } := by
  rcases transpose_ok h with ⟨rfl, rfl⟩ | ⟨p, d, rfl, hd, rfl⟩
  · rfl
  · obtain ⟨oid, hoid, hd⟩ := bind_ok hd
    cases hd
    show some (CarriedDigest.mk (L.oidText oid) p.digest) = some ⟨L.spelled p.algorithmOid, _⟩
    rw [spelled_of_parseOid (oidFrom_ok hoid)]

/-- The matrix is shown as it was given. -/
theorem shown_matrix (hL : L.Lawful) {given : Option FrameMatrix} {matrix : Option Matrix}
    (h : transpose (composerMatrix L) given = .ok matrix)
    (hvalid : ∀ m, given = some m → JsNumber.finite (toU8 m.n).toNat = m.n) :
    (matrix.map fun m => FrameMatrix.mk (.finite m.n.toNat) m.data) = given := by
  rcases transpose_ok h with ⟨rfl, rfl⟩ | ⟨g, m, rfl, hm, rfl⟩
  · rfl
  · unfold composerMatrix at hm
    split at hm
    · next m' hrow =>
      cases hm
      obtain rfl := hL.fromRowMajor hrow
      show some (FrameMatrix.mk (.finite (toU8 g.n).toNat) g.data) = some g
      rw [hvalid g rfl]
    · cases hm

/-- The content type of a compressed body, as it is shown. -/
theorem shown_contentOid {given : Option String} {oid : Option Oid}
    (h : transpose (oidFrom L · "contentOid") given = .ok oid) :
    L.oidText (oid.getD .data) = (given.map L.spelled).getD (L.oidText .data) := by
  rcases transpose_ok h with ⟨rfl, rfl⟩ | ⟨text, o, rfl, ho, rfl⟩
  · rfl
  · exact (spelled_of_parseOid (oidFrom_ok ho)).symm

/-- The commitment is shown as the hasher made it. -/
theorem shown_committed {spec : FrameSpec} {bodyDer : Octets}
    {integrity : Option DigestInfo} (h : Committed L spec bodyDer integrity) :
    match spec.messageIntegrity with
    | none => integrity.map (DigestInfo.shown L) = none
    | some ⟨hasher, salt⟩ => ∃ preimage digest,
        commitmentPreimage L (salt.getD []) bodyDer = .ok preimage ∧
        hasher.digest preimage = .ok digest ∧
        integrity.map (DigestInfo.shown L) = some ⟨L.spelled hasher.algorithmOid, digest⟩ := by
  unfold Committed at h
  split at h
  · rw [h]
    rfl
  · obtain ⟨preimage, digest, oid, hpreimage, hdigest, hoid, rfl⟩ := h
    refine ⟨preimage, digest, hpreimage, hdigest, ?_⟩
    rw [spelled_of_parseOid hoid]
    rfl

/-- Compactness info is shown as the compressor made it, and the inflator undoes it. -/
theorem shown_compressed {spec : FrameSpec} {bodyDer sealInput : Octets}
    {compactness : Option CompressedData} (h : Compressed L spec bodyDer compactness sealInput) :
    ∃ parametersDer,
      transpose L.any.write (compactness.bind fun info => info.compressionAlg.parameters) =
        .ok parametersDer ∧
      match spec.compressor with
      | none => compactness = none ∧ sealInput = bodyDer
      | some compressor => ∃ compressed, compressor.compress bodyDer = .ok compressed ∧
          sealInput = compressed.data ∧
          (compactness.map fun info => CompactnessInfo.mk (L.oidText info.compressionAlg.oid)
            parametersDer (some (L.oidText info.econtentType))) =
            some (compressed.info L) := by
  unfold Compressed at h
  split at h
  · obtain ⟨rfl, rfl⟩ := h
    exact ⟨none, rfl, rfl, rfl⟩
  · obtain ⟨compressed, contentOid, algorithmOid, parameters, hcompress, hcontent, halgorithm,
      hparameters, rfl, rfl⟩ := h
    refine ⟨compressed.parametersDer, hparameters, compressed, hcompress, rfl, ?_⟩
    rw [CompressedBody.info, spelled_of_parseOid halgorithm, ← shown_contentOid hcontent]
    rfl

/-- The envelope is shown as the encryptor made it. -/
theorem shown_sealed (hL : L.Lawful) {spec : FrameSpec} {sealInput carried : Octets}
    {confidentiality : Option AuthEnvelopedData} (h : Sealed L spec sealInput confidentiality carried) :
    ∃ envelopeDer, transpose L.envelopeDer confidentiality = .ok envelopeDer ∧
      match spec.encryptor with
      | none => confidentiality = none ∧ carried = sealInput
      | some encryptor => ∃ sealed envelope,
          encryptor.encrypt sealInput spec.sealedOid = .ok sealed ∧
          L.parseEnvelope sealed.envelopeDer = .ok envelope ∧ carried = sealed.ciphertext ∧
          (confidentiality.bind fun envelope => envelopeDer.map fun der =>
            ConfidentialityInfo.mk (L.oidText envelope.contentEncAlg) der) =
            some ⟨L.oidText envelope.contentEncAlg, sealed.envelopeDer⟩ := by
  unfold Sealed at h
  split at h
  · obtain ⟨rfl, rfl⟩ := h
    exact ⟨none, rfl, rfl, rfl⟩
  · obtain ⟨sealed, envelope, hencrypt, hparse, rfl, rfl⟩ := h
    refine ⟨some sealed.envelopeDer, ?_, sealed, envelope, hencrypt, hparse, rfl, rfl⟩
    rw [transpose, hL.envelope hparse]
    rfl

/-- The witness is shown as the hasher made it, over octets that are still the same. -/
theorem shown_witnessed {spec : FrameSpec} {version : Version} {metadata : Metadata}
    {witness : Option DigestInfo}
    (h : Witnessed L spec version metadata witness) :
    match spec.frameIntegrity with
    | none => witness.map (DigestInfo.shown L) = none
    | some hasher => ∃ preimage digest, witnessOf L version metadata = .ok preimage ∧
        hasher.digest preimage = .ok digest ∧
        witness.map (DigestInfo.shown L) = some ⟨L.spelled hasher.algorithmOid, digest⟩ := by
  unfold Witnessed at h
  split at h
  · rw [h]
    rfl
  · obtain ⟨preimage, digest, oid, hpreimage, hdigest, hoid, rfl⟩ := h
    refine ⟨preimage, digest, hpreimage, hdigest, ?_⟩
    rw [spelled_of_parseOid hoid]
    rfl

/-- The signature is shown under the algorithms of the signatory. -/
theorem shown_signed {spec : FrameSpec} {der : Octets} {signer : Option SignerInfo}
    (h : Signed L spec der signer) :
    match spec.signer with
    | none => signer = none
    | some signatory => ∃ prehash signature, signaturePrehash L der = .ok prehash ∧
        signatory.signPrehash prehash = .ok signature ∧
        (signer.map fun info => SignatureInfo.mk (L.oidText info.signatureAlgorithm)
          (L.oidText info.digestAlg) info.signature) =
          some ⟨signatory.signatureAlgorithmOid, signatory.digestAlgorithmOid, signature⟩ := by
  unfold Signed at h
  split at h
  · exact h
  · obtain ⟨info, prehash, hprehash, hsign, hsigOid, hdigestOid, rfl⟩ := h
    refine ⟨prehash, info.signature, hprehash, hsign, ?_⟩
    show some (SignatureInfo.mk (L.oidText info.signatureAlgorithm) (L.oidText info.digestAlg)
      info.signature) = _
    rw [hsigOid, hdigestOid]

theorem sealInput_of_compressed {spec : FrameSpec} {bodyDer sealInput : Octets}
    {compactness : Option CompressedData} (h : Compressed L spec bodyDer compactness sealInput) :
    SealInput spec bodyDer sealInput := by
  unfold Compressed at h
  unfold SealInput
  split at h
  · exact h.2
  · obtain ⟨compressed, -, -, -, hcompress, -, -, -, -, hinput⟩ := h
    exact ⟨compressed, hcompress, hinput⟩

/-- The decryptor finds what was sealed. -/
theorem decryptBody_shown (hL : L.Lawful) {spec : FrameSpec} {f : Frame} {sealInput : Octets}
    {parametersDer envelopeDer : Option Octets} {decryptor : BodyDecryptor}
    (h : Sealed L spec sealInput f.metadata.confidentiality f.message)
    (henvelope : transpose L.envelopeDer f.metadata.confidentiality = .ok envelopeDer)
    (hopens : ∀ encryptor, spec.encryptor = some encryptor → Opens L decryptor encryptor) :
    decryptBody (f.shown L parametersDer envelopeDer) decryptor = .ok sealInput := by
  obtain ⟨envelopeDer', henvelope', hconf⟩ := shown_sealed hL h
  rw [henvelope] at henvelope'
  cases henvelope'
  unfold decryptBody Frame.shown
  dsimp only
  cases hencryptor : spec.encryptor with
  | none =>
    rw [hencryptor] at hconf
    obtain ⟨hnone, hcarried⟩ := hconf
    rw [hnone, hcarried]
    rfl
  | some encryptor =>
    rw [hencryptor] at hconf
    obtain ⟨sealed, envelope, hencrypt, hparse, hcarried, hshown⟩ := hconf
    rw [hshown, hcarried]
    exact hopens encryptor hencryptor hencrypt hparse

/-- The inflator finds the body in what was sealed. -/
theorem openBody_shown {spec : FrameSpec} {f : Frame} {bodyDer sealInput : Octets}
    {parametersDer envelopeDer : Option Octets} {decryptor : BodyDecryptor}
    {inflator : BodyInflator}
    (h : Compressed L spec bodyDer f.metadata.compactness sealInput)
    (hparameters : transpose L.any.write
      (f.metadata.compactness.bind fun info => info.compressionAlg.parameters) = .ok parametersDer)
    (hplain : decryptBody (f.shown L parametersDer envelopeDer) decryptor = .ok sealInput)
    (hinflates : ∀ compressor, spec.compressor = some compressor → Inflates L inflator compressor) :
    openBody (f.shown L parametersDer envelopeDer) decryptor inflator = .ok bodyDer := by
  obtain ⟨parametersDer', hparameters', hcompact⟩ := shown_compressed h
  rw [hparameters] at hparameters'
  cases hparameters'
  rw [openBody, hplain]
  unfold Frame.shown
  dsimp only
  cases hcompressor : spec.compressor with
  | none =>
    rw [hcompressor] at hcompact
    obtain ⟨hnone, rfl⟩ := hcompact
    rw [hnone]
    rfl
  | some compressor =>
    rw [hcompressor] at hcompact
    obtain ⟨compressed, hcompress, rfl, hshown⟩ := hcompact
    rw [hshown]
    exact hinflates compressor hcompressor hcompress

/-- The getters of a composed frame, and the body under its layers. -/
theorem readsBack_of_compose (hL : L.Lawful) {spec : FrameSpec} {der : Octets}
    (hvalid : collectIssues L spec = []) (h : compose L spec = .ok der) :
    ∃ bodyDer fields, bodyDerOf L spec = .ok bodyDer ∧ decoded L der = .ok fields ∧
      ReadsBack L spec der bodyDer fields := by
  obtain ⟨-, horder, hlifetime, hmatrix⟩ := collectIssues_nil hvalid
  obtain ⟨bodyDer, sealInput, carried, previousHash, matrix, integrity, compactness,
    confidentiality, witness, nonrepudiation, hbody, hprevious, hrow, hcommitted, hcompressed,
    hsealed, hwitnessed, hsigned, hf⟩ := fromDer_compose hL h
  obtain ⟨parametersDer, hparameters, hcompact⟩ := shown_compressed hcompressed
  obtain ⟨envelopeDer, henvelope, hconf⟩ := shown_sealed hL hsealed
  have hwitness := shown_witnessed hwitnessed
  have hsignature := shown_signed hsigned
  have hdecoded := decoded_of_fromDer hf hparameters henvelope
  refine ⟨bodyDer, _, hbody, hdecoded, ?_⟩
  constructor
  case version => rfl
  case id => rfl
  case order =>
    intro order hsome
    show ((((spec.order.map toU64).getD 0 : ℕ)) : ℤ) = order
    rw [hsome]
    exact horder order hsome
  case priority => rfl
  case lifetime =>
    show ((spec.lifetime.map toU64).map fun seconds => (seconds : ℤ)) = spec.lifetime
    cases hsome : spec.lifetime with
    | none => rfl
    | some seconds => exact congrArg some (hlifetime seconds hsome)
  case previousFrame => exact shown_previousHash hprevious
  case matrix => exact shown_matrix hL hrow hmatrix
  case messageIntegrity => exact shown_committed hcommitted
  case frameIntegrity =>
    cases hhasher : spec.frameIntegrity with
    | none => rw [hhasher] at hwitness; exact hwitness
    | some hasher =>
      rw [hhasher] at hwitness
      obtain ⟨preimage, digest, hpreimage, hdigest, hshown⟩ := hwitness
      have hinput := (witnessInput_eq hL hf).trans hpreimage
      refine ⟨preimage, digest, hinput, hdigest, hshown, ?_⟩
      rw [frameIntegrityVerdict, hdecoded]
      show verdictOf L (witness.map (DigestInfo.shown L)) hasher (witnessInput L der) = _
      rw [hshown]
      exact verdictOf_digest hinput hdigest
  case compactness =>
    cases hcompressor : spec.compressor with
    | none => rw [hcompressor] at hcompact; obtain ⟨rfl, -⟩ := hcompact; rfl
    | some compressor =>
      rw [hcompressor] at hcompact
      obtain ⟨compressed, hcompress, -, hshown⟩ := hcompact
      exact ⟨compressed, hcompress, hshown⟩
  case confidentiality =>
    cases hencryptor : spec.encryptor with
    | none => rw [hencryptor] at hconf; obtain ⟨rfl, -⟩ := hconf; rfl
    | some encryptor =>
      rw [hencryptor] at hconf
      obtain ⟨sealed, envelope, hencrypt, hparse, hcarried, hshown⟩ := hconf
      exact ⟨sealInput, sealed, envelope, sealInput_of_compressed hcompressed, hencrypt, hparse,
        hshown, hcarried⟩
  case signature =>
    cases hsigner : spec.signer with
    | none =>
      rw [hsigner] at hsignature
      exact congrArg (Option.map _) hsignature
    | some signer => rw [hsigner] at hsignature; exact hsignature
  case body =>
    intro decryptor inflator hopens hinflates
    -- the layers come off in the order opposite to the one they were put on in
    refine openBody_shown hcompressed hparameters ?_ hinflates
    exact decryptBody_shown hL hsealed henvelope hopens
  case spelling =>
    intro text oid hoid
    rw [spelled_of_parseOid hoid]
    exact ⟨hL.parseOid hoid, fun hplain => hL.oidText hplain hoid⟩

/-- **What was specified is read back.**  A frame composed from a valid specification shows its
version, identifier, order, priority, lifetime, parent and matrix, carries exactly the layers
asked for under the algorithms of their implementations, its witness is the one the hasher makes
again, and its body comes back from under its layers. -/
theorem composed_frame_reads_back (hL : L.Lawful) {spec : FrameSpec} {der : Octets}
    (hvalid : collectIssues L spec = []) (h : compose L spec = .ok der) :
    ∃ slot bodyDer fields, spec.message = some slot ∧ slot.encodeBody = .ok bodyDer ∧
      decoded L der = .ok fields ∧ ReadsBack L spec der bodyDer fields := by
  obtain ⟨slot, hslot⟩ := Option.ne_none_iff_exists'.mp (collectIssues_nil hvalid).1
  obtain ⟨bodyDer, fields, hbody, hdecoded, hreads⟩ := readsBack_of_compose hL hvalid h
  rw [bodyDerOf, hslot] at hbody
  exact ⟨slot, bodyDer, fields, hslot, hbody, hdecoded, hreads⟩

namespace Small

/-- A specification with every layer but the signature. -/
def layered (hasherOid sealedOid : String) : FrameSpec where
  id := some [0x01, 0x02]
  order := some 7
  message := some ⟨none, .ok [0x30, 0x03, 0x04, 0x01, 0x2A]⟩
  messageIntegrity := some ⟨counter hasherOid, none⟩
  frameIntegrity := some (counter hasherOid)
  compressor := some reverser
  encryptor := some (inverter sealedOid)

/-- A signatory that signs with the length of the prehash. -/
def signatory : Signatory :=
  ⟨ecdsaWithSha3256, sha3256, none, .ok [0x07],
    fun prehash => .ok [0xAB, UInt8.ofNat prehash.length]⟩

/-- A specification with every layer. -/
def signedSpec : FrameSpec :=
  { layered "2.16.840.1.101.3.4.2.8" "2.16.840.1.101.3.4.1.46" with signer := some signatory }

/-- The frames that are made for it. -/
def signedLayers : List Frame :=
  frames ++ [{ frameOf (some profileCompactness) (some ⟨⟨sha3, none⟩, [6]⟩) (some profileEnvelope)
      (([0x30, 0x03, 0x04, 0x01, 0x2A] : Octets).reverse.map (~~~ ·))
      (some ⟨⟨sha3, none⟩, [119]⟩) with
    nonrepudiation := some ⟨.subjectKeyIdentifier [0x07], sha3, [147], ecdsa, [0xAB, 3]⟩ }]

theorem inflates (L : Library) : Inflates L unreverser reverser := by
  intro bodyDer compressed h
  cases h
  exact congrArg Except.ok (List.reverse_reverse bodyDer)

theorem opens (L : Library) (algorithmOid : String) : Opens L uninverter (inverter algorithmOid) := by
  intro bodyDer contentOid sealed envelope h _
  cases h
  show Except.ok ((bodyDer.map (~~~ ·)).map (~~~ ·)) = _
  rw [List.map_map]
  congr 1
  exact (List.map_congr_left fun b _ => UInt8.not_not).trans (List.map_id _)

end Small

/-- A frame that is committed to, compressed, sealed, witnessed and signed is read back, and its
witness verifies behind the signature. -/
theorem layered_frame_reads_back : ∃ der fields,
    compose (Small.signing Small.signedLayers) Small.signedSpec = .ok der ∧
    decoded (Small.signing Small.signedLayers) der = .ok fields ∧ fields.version = .v2 ∧
    fields.order = 7 ∧
    frameIntegrityVerdict (Small.signing Small.signedLayers) der
      (Small.counter "2.16.840.1.101.3.4.2.8") = .ok .verified ∧
    (∃ prehash signature, signaturePrehash (Small.signing Small.signedLayers) der = .ok prehash ∧
      Small.signatory.signPrehash prehash = .ok signature ∧
      fields.signature = some ⟨ecdsaWithSha3256, sha3256, signature⟩) ∧
    openBody fields Small.uninverter Small.unreverser = .ok [0x30, 0x03, 0x04, 0x01, 0x2A] := by
  have hrun : (compose (Small.signing Small.signedLayers) Small.signedSpec).map List.length =
      .ok 161 := by decide +kernel
  obtain ⟨der, hder, -⟩ := map_ok hrun
  obtain ⟨slot, bodyDer, fields, hslot, hbody, hdecoded, h⟩ :=
    composed_frame_reads_back (Small.signing_lawful Small.signedLayers) (by decide +kernel) hder
  cases hslot
  cases hbody
  obtain ⟨preimage, digest, -, -, -, hverdict⟩ := h.frameIntegrity
  refine ⟨der, fields, hder, hdecoded, h.version, h.order 7 rfl, hverdict, h.signature, ?_⟩
  apply h.body
  · intro encryptor hencryptor
    cases hencryptor
    exact Small.opens _ _
  · intro compressor hcompressor
    cases hcompressor
    exact Small.inflates _

/-- A hasher that writes a zero too many is not recognised, and an encryptor that says another
algorithm than its envelope is not believed. -/
theorem identifiers_are_respelled : ∃ der fields,
    (Small.library Small.frames).Lawful ∧
    collectIssues (Small.library Small.frames)
      (Small.layered "2.16.840.1.101.3.4.02.8" "2.16.840.1.101.3.4.1.6") = [] ∧
    compose (Small.library Small.frames)
      (Small.layered "2.16.840.1.101.3.4.02.8" "2.16.840.1.101.3.4.1.6") = .ok der ∧
    decoded (Small.library Small.frames) der = .ok fields ∧
    fields.frameIntegrity.map CarriedDigest.algorithmOid ≠ some "2.16.840.1.101.3.4.02.8" ∧
    frameIntegrityVerdict (Small.library Small.frames) der
      (Small.counter "2.16.840.1.101.3.4.02.8") = .ok .algorithmMismatch ∧
    fields.confidentiality.map ConfidentialityInfo.algorithmOid ≠
      some "2.16.840.1.101.3.4.1.6" := by
  have hverdict : (compose (Small.library Small.frames)
      (Small.layered "2.16.840.1.101.3.4.02.8" "2.16.840.1.101.3.4.1.6")).bind
      (frameIntegrityVerdict (Small.library Small.frames) ·
        (Small.counter "2.16.840.1.101.3.4.02.8")) = .ok .algorithmMismatch := by decide +kernel
  have hfields : (compose (Small.library Small.frames)
      (Small.layered "2.16.840.1.101.3.4.02.8" "2.16.840.1.101.3.4.1.6")).bind
      (fun der => (decoded (Small.library Small.frames) der).map fun fields =>
        (fields.frameIntegrity.map CarriedDigest.algorithmOid,
          fields.confidentiality.map ConfidentialityInfo.algorithmOid)) =
      .ok (some "2.16.840.1.101.3.4.2.8", some "2.16.840.1.101.3.4.1.46") := by decide +kernel
  obtain ⟨der, hder, hverdict⟩ := bind_ok hverdict
  rw [hder] at hfields
  obtain ⟨fields, hdecoded, heq⟩ := map_ok hfields
  obtain ⟨hwitness, hconf⟩ := Prod.mk.inj heq
  refine ⟨der, fields, Small.lawful _, by decide +kernel, hder, hdecoded, ?_, hverdict, ?_⟩
  · rw [hwitness]
    decide
  · rw [hconf]
    decide

end Ws
end TightbeamExt
