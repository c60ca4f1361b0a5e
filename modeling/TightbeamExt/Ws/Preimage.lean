import TightbeamExt.Ws.Small

/-!
# Preimages are stable

A witness and a signature are made over octets of the frame they are then attached to.  Who
checks them computes these octets again, from the frame that carries them, and on another way:
the preimage of a witness by a raw splice, the digest of a signature from the decoded frame.

A small library with signatures shows that the laws have a model that signs.

## Main definitions

* `Small.signingParts`, `Small.signing` — the small library with signatures.

## Main results

* `preimages_are_stable` — **attaching a witness or a signature does not change the octets it
  was made over**.
* `Small.signing_lawful` — the laws hold of the library that signs.
-/

namespace TightbeamExt
namespace Ws

open Asn (Octets)

variable {L : Library}

/-- What a splice is run on is accepted as a frame. -/
theorem fromDer_of_parse {der : Octets} {wire : WireFrame} (h : WireFrame.parse L der = .ok wire) :
    ∃ f, L.fromDer der = .ok f := by
  obtain ⟨f, hf, -⟩ := bind_ok h
  exact ⟨f, hf⟩

/-- A witness is over the version and the metadata, not over itself. -/
theorem witnessInput_attachWitness (hL : L.Lawful) {der der' digest : Octets} {oid : Oid}
    (h : attachWitness L der oid digest = .ok der') : witnessInput L der' = witnessInput L der := by
  obtain ⟨wire, hparse, -⟩ := bind_ok h
  obtain ⟨f, hf⟩ := fromDer_of_parse hparse
  rw [witnessInput_eq hL hf, witnessInput_eq hL (fromDer_attachWitness hL hf h)]

/-- Nor is it over the signature. -/
theorem witnessInput_attachSignature (hL : L.Lawful) {der der' signature keyId : Octets}
    (h : attachSignature L der signature keyId = .ok der') :
    witnessInput L der' = witnessInput L der := by
  obtain ⟨f, hf, -⟩ := bind_ok h
  obtain ⟨info, hinfo, -⟩ := fromDer_attachSignature hL hf h
  rw [witnessInput_eq hL hf, witnessInput_eq hL hinfo]

/-- What is verified is the digest that was signed. -/
theorem signaturePrehash_attachSignature (hL : L.Lawful) {der der' signature keyId : Octets}
    (h : attachSignature L der signature keyId = .ok der') :
    signaturePrehash L der' = signingPrehash L der keyId := by
  obtain ⟨f, hf, -⟩ := bind_ok h
  obtain ⟨info, -, -, -, -, hprehash⟩ := fromDer_attachSignature hL hf h
  exact hprehash

/-- **Preimages are stable under attaching their own artifact**, whatever layers the frame
carries: the preimage of a witness when a witness or a signature is attached, and the digest a
key signs, for every signature and key identifier. -/
theorem preimages_are_stable (hL : L.Lawful) (der : Octets) :
    (∀ {oid digest der'}, attachWitness L der oid digest = .ok der' →
      witnessInput L der' = witnessInput L der) ∧
    ∀ {signature keyId der'}, attachSignature L der signature keyId = .ok der' →
      witnessInput L der' = witnessInput L der ∧
      signaturePrehash L der' = signingPrehash L der keyId := by
  refine ⟨witnessInput_attachWitness hL, ?_⟩
  intro signature keyId der' h
  exact ⟨witnessInput_attachSignature hL h, signaturePrehash_attachSignature hL h⟩

/-! ### A small library that signs -/

namespace Small

/-- `ecdsa-with-SHA3-256`. -/
def ecdsa : Oid := ⟨[2, 16, 840, 1, 101, 3, 4, 3, 10]⟩

/-- The octets of a signature of the profile. -/
def signerDer (info : SignerInfo) : Except TightBeamError Octets :=
  match info.sid with
  | .issuerAndSerialNumber _ => .error (.other 12)
  | .subjectKeyIdentifier keyId =>
      if info.digestAlg = sha3 ∧ info.signatureAlgorithm = ecdsa then
        sequenceOf [⟨.octetString, keyId⟩, ⟨.octetString, info.signedAttrs⟩,
          ⟨.octetString, info.signature⟩]
      else .error (.other 12)

/-- The encoders of the parts of a frame, with signatures. -/
def signingParts : Library :=
  { parts with
    oidText := fun oid => if oid = ecdsa then "2.16.840.1.101.3.4.3.10" else parts.oidText oid
    signerDer := signerDer
    draft := fun sid tbs =>
      .ok ⟨sid, [UInt8.ofNat tbs.length], [0x31, UInt8.ofNat tbs.length, tbs.foldl (· ^^^ ·) 0]⟩
    complete := fun d signature => .ok ⟨d.sid, sha3, d.signedAttrs, ecdsa, signature⟩ }

/-- The encoding of a frame that may be signed. -/
def signedDer (f : Frame) : Except TightBeamError Octets :=
  (signingParts.frameComponents f).bind signingParts.sequenceDer

/-- The library that reads, and signs, the frames of a list. -/
def signing (known : List Frame) : Library :=
  { signingParts with
    fromDer := fun der =>
      match known.find? fun f => signedDer f = .ok der with
      | some f => .ok f
      | none => .error (.other 13)
    toDer := signedDer
    toTbs := fun f => signedDer { f with nonrepudiation := none }
    attachSignerInfo := fun f info =>
      if { f with nonrepudiation := some info } ∈ known then
        .ok { f with nonrepudiation := some info }
      else .error (.other 12) }

theorem signerDer_injective {s s' : SignerInfo} {der : Octets} (h : signerDer s = .ok der)
    (h' : signerDer s' = .ok der) : s = s' := by
  obtain ⟨sid, digestAlg, attrs, signatureAlgorithm, signature⟩ := s
  obtain ⟨sid', digestAlg', attrs', signatureAlgorithm', signature'⟩ := s'
  cases sid with
  | issuerAndSerialNumber octets => cases h
  | subjectKeyIdentifier keyId =>
    cases sid' with
    | issuerAndSerialNumber octets => cases h'
    | subjectKeyIdentifier keyId' =>
      simp only [signerDer] at h h'
      split at h
      · next hprofile =>
        split at h'
        · next hprofile' =>
          obtain ⟨rfl, rfl⟩ := hprofile
          obtain ⟨rfl, rfl⟩ := hprofile'
          have heq := sequenceDer_injective h h'
          cases heq
          rfl
        · cases h'
      · cases h

/-- **Two frames are not encoded alike**, signed or not. -/
theorem signedDer_injective {f g : Frame} {der : Octets} (hf : signedDer f = .ok der)
    (hg : signedDer g = .ok der) : f = g := by
  obtain ⟨cs, hcs, hder⟩ := bind_ok hf
  obtain ⟨cs', hcs', hder'⟩ := bind_ok hg
  obtain rfl := sequenceDer_injective hder hder'
  obtain ⟨metadata, hmetadata, hcs⟩ := bind_ok hcs
  obtain ⟨integrity, hintegrity, hcs⟩ := bind_ok hcs
  obtain ⟨signer, hsigner, hcs⟩ := bind_ok hcs
  obtain ⟨metadata', hmetadata', hcs'⟩ := bind_ok hcs'
  obtain ⟨integrity', hintegrity', hcs'⟩ := bind_ok hcs'
  obtain ⟨signer', hsigner', hcs'⟩ := bind_ok hcs'
  cases hcs
  have heq := Except.ok.inj hcs'
  simp only [List.cons.injEq] at heq
  obtain ⟨hversion, rfl, hmessage, hfields⟩ := heq
  -- the witness has tag 0, the signature tag 1
  have hsigner₁ := field_tag tagged_tag hsigner
  have hsigner₂ := field_tag tagged_tag hsigner'
  obtain ⟨rfl, rfl⟩ := append_tag_injective (field_tag tagged_tag hintegrity')
    (field_tag tagged_tag hintegrity) (tag_ne hsigner₂ (by decide)) (tag_ne hsigner₁ (by decide))
    hfields
  obtain ⟨ms, hms, hfield⟩ := bind_ok hmetadata
  obtain ⟨ms', hms', hfield'⟩ := bind_ok hmetadata'
  obtain rfl := sequenceField_injective hfield hfield'
  have hmeta := metadata_injective hms hms'
  have hwitness := field_injective (tagged_injective digestDer_injective) hintegrity hintegrity'
  have hsigned := field_injective (tagged_injective signerDer_injective) hsigner hsigner'
  have hvers : f.version = g.version := by
    revert hversion
    cases f.version <;> cases g.version <;> decide
  obtain ⟨fv, fm, fb, fi, fn⟩ := f
  obtain ⟨gv, gm, gb, gi, gn⟩ := g
  simp_all

/-- What is read is a frame of the list. -/
theorem mem_of_fromDer {known : List Frame} {der : Octets} {f : Frame}
    (h : (signing known).fromDer der = .ok f) : f ∈ known ∧ signedDer f = .ok der := by
  simp only [signing] at h
  split at h
  · next g hfind =>
    cases h
    exact ⟨List.mem_of_find?_eq_some hfind, by simpa using List.find?_some hfind⟩
  · cases h

/-- What is attached is a frame of the list. -/
theorem attachSignerInfo_ok {known : List Frame} {f g : Frame} {info : SignerInfo}
    (h : (signing known).attachSignerInfo f info = .ok g) :
    g = { f with nonrepudiation := some info } ∧ g ∈ known := by
  simp only [signing] at h
  split at h
  · next hmem =>
    cases h
    exact ⟨rfl, hmem⟩
  · cases h

/-- **The laws hold** of the library that signs. -/
theorem signing_lawful (known : List Frame) : (signing known).Lawful where
  any := codec_lawful
  newAny h := by cases h; rfl
  parseOid {text oid} h := by
    rcases mem_oids h with heq | heq | heq | heq | heq <;> cases heq <;> rfl
  oidText {text oid} hplain h := by
    rcases mem_oids h with heq | heq | heq | heq | heq
    · cases heq; rfl
    · cases heq; rfl
    · cases heq; rfl
    · cases heq; rfl
    · -- a zero too many
      cases heq
      exact absurd hplain (by decide)
  versionField := (lawful known).versionField
  idField := (lawful known).idField
  orderField := (lawful known).orderField
  compressedDer := (lawful known).compressedDer
  closing := (lawful known).closing
  signerTag := Nat.zero_lt_one
  envelope := (lawful known).envelope
  toDer {f der} := by
    constructor
    · intro h
      exact bind_ok h
    · rintro ⟨cs, hcs, hder⟩
      have hcs' : signingParts.frameComponents f = .ok cs := hcs
      show (signingParts.frameComponents f).bind signingParts.sequenceDer = _
      rw [hcs']
      exact hder
  canonical h := (mem_of_fromDer h).2
  faithful hf hg := signedDer_injective (mem_of_fromDer hg).2 hf
  builder := (lawful known).builder
  fromRowMajor := (lawful known).fromRowMajor
  toTbs _ _ := rfl
  draft h := by cases h; rfl
  complete h := by
    cases h
    exact ⟨rfl, rfl, rfl, rfl⟩
  attachSignerInfo h := (attachSignerInfo_ok h).1
  readable {f info g der} h hder := by
    obtain ⟨-, hmem⟩ := attachSignerInfo_ok h
    have hder' : signedDer g = .ok der := hder
    cases hfind : known.find? fun f => signedDer f = .ok der with
    | none =>
      rw [List.find?_eq_none] at hfind
      exact absurd (by simpa using hder') (hfind g hmem)
    | some k => exact ⟨k, by simp [signing, hfind]⟩

/-- A frame, witnessed and then signed. -/
def signedFrames : List Frame :=
  [frameOf none none none [0x2A] none,
    frameOf none none none [0x2A] (some ⟨⟨sha3, none⟩, [9]⟩),
    { frameOf none none none [0x2A] (some ⟨⟨sha3, none⟩, [9]⟩) with
      nonrepudiation := some ⟨.subjectKeyIdentifier [0x07], sha3, [37], ecdsa, [0xAB, 0xCD]⟩ }]

/-- The frame is witnessed and signed, and what it carries is checked over the octets it was made
over. -/
theorem witnessed_and_signed : ∃ der witnessed signed preimage,
    signedDer (frameOf none none none [0x2A] none) = .ok der ∧
    attachWitness (signing signedFrames) der sha3 [9] = .ok witnessed ∧
    attachSignature (signing signedFrames) witnessed [0xAB, 0xCD] [0x07] = .ok signed ∧
    witnessInput (signing signedFrames) der = .ok preimage ∧
    witnessInput (signing signedFrames) witnessed = .ok preimage ∧
    witnessInput (signing signedFrames) signed = .ok preimage ∧
    signaturePrehash (signing signedFrames) signed =
      signingPrehash (signing signedFrames) witnessed [0x07] := by
  have hrun : ((signedDer (frameOf none none none [0x2A] none)).bind fun der =>
      (witnessInput (signing signedFrames) der).bind fun preimage =>
      (attachWitness (signing signedFrames) der sha3 [9]).bind fun witnessed =>
      (attachSignature (signing signedFrames) witnessed [0xAB, 0xCD] [0x07]).map fun signed =>
      (preimage.length, signed.length)) = .ok (14, 51) := by decide +kernel
  obtain ⟨der, hder, hrun⟩ := bind_ok hrun
  obtain ⟨preimage, hpreimage, hrun⟩ := bind_ok hrun
  obtain ⟨witnessed, hwitnessed, hrun⟩ := bind_ok hrun
  obtain ⟨signed, hsigned, -⟩ := map_ok hrun
  have hwitness := (preimages_are_stable (signing_lawful signedFrames) der).1 hwitnessed
  obtain ⟨hsignature, hprehash⟩ :=
    (preimages_are_stable (signing_lawful signedFrames) witnessed).2 hsigned
  rw [hpreimage] at hwitness
  rw [hwitness] at hsignature
  exact ⟨der, witnessed, signed, preimage, hder, hwitnessed, hsigned, hpreimage, hwitness, hsignature,
    hprehash⟩

end Small

end Ws
end TightbeamExt
