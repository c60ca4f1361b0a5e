import TightbeamExt.Ws.Compose

/-!
# Envelopes

An envelope is a message codec and the layers that were declared, each by one half or by both.
It frames messages with every declared layer, and unwraps frames by reversing the layers the
frame itself carries, which the sender chose.

## Main definitions

* `Declaration`, `Envelope.declared` — the layers of a chain of declarations.
* `Envelope.frame`, `Envelope.unwrap` — the two directions.
* `Reversed` — a body, and what is under the layers a frame carries.
* `Matched` — every layer that is used has both halves.

## Main results

* `unwrap_iff` — what an envelope accepts.
* `envelope_never_downgrades` — **what was declared is enforced, in both directions.**
* `envelope_round_trip` — **what was framed is unwrapped.**
-/

namespace TightbeamExt
namespace Ws

open Asn (Octets)

/-! ### Layers -/

/-- `Layers`. -/
structure Layers where
  /-- Signs. -/
  signer : Option Signatory := none
  /-- Verifies. -/
  verifier : Option FrameVerifier := none
  /-- Seals. -/
  sealer : Option BodyEncryptor := none
  /-- Opens. -/
  opener : Option BodyDecryptor := none
  /-- Compresses. -/
  compressor : Option BodyCompressor := none
  /-- Inflates. -/
  inflator : Option BodyInflator := none

/-- A capability that has one half of a layer, or both. -/
inductive Halves (α β : Type)
  /-- The half that wraps. -/
  | wrap (a : α)
  /-- The half that unwraps. -/
  | unwrap (b : β)
  /-- Both. -/
  | both (a : α) (b : β)

/-- The half that wraps. -/
def Halves.wrap? {α β : Type} : Halves α β → Option α
  | .wrap a | .both a _ => some a
  | .unwrap _ => none

/-- The half that unwraps. -/
def Halves.unwrap? {α β : Type} : Halves α β → Option β
  | .unwrap b | .both _ b => some b
  | .wrap _ => none

/-- A declaration. -/
inductive Declaration
  | signed (signatory : Signatory)
  | verified (verifier : FrameVerifier)
  | sealed (keys : Halves BodyEncryptor BodyDecryptor)
  | compressed (compression : Halves BodyCompressor BodyInflator)

/-- The halves a declaration contributes. -/
def Declaration.patch : Declaration → Layers
  | .signed signatory => { signer := some signatory }
  | .verified verifier => { verifier := some verifier }
  | .sealed keys => { sealer := keys.wrap?, opener := keys.unwrap? }
  | .compressed compression =>
      { compressor := compression.wrap?, inflator := compression.unwrap? }

/-- It declares authenticity. -/
def Declaration.isAuthenticity : Declaration → Bool
  | .signed _ | .verified _ => true
  | _ => false

/-- It declares confidentiality. -/
def Declaration.isConfidentiality : Declaration → Bool
  | .sealed _ => true
  | _ => false

namespace Layers

/-- `with`: the halves of a patch replace those there are. -/
def withPatch (layers patch : Layers) : Layers where
  signer := patch.signer.or layers.signer
  verifier := patch.verifier.or layers.verifier
  sealer := patch.sealer.or layers.sealer
  opener := patch.opener.or layers.opener
  compressor := patch.compressor.or layers.compressor
  inflator := patch.inflator.or layers.inflator

/-- The layers after a chain of declarations. -/
def declared (declarations : List Declaration) : Layers :=
  declarations.foldl (fun layers d => layers.withPatch d.patch) {}

variable (layers : Layers)

/-- `authenticityDeclared`. -/
def authenticityDeclared : Bool := layers.signer.isSome || layers.verifier.isSome

/-- `sealedDeclared`. -/
def sealedDeclared : Bool := layers.sealer.isSome || layers.opener.isSome

/-- `resolveVerifier`: the explicit declaration, or the signatory's own verify half. -/
def resolveVerifier : Option FrameVerifier :=
  match layers.verifier with
  | some verifier => some verifier
  | none => layers.signer.bind Signatory.verifier

end Layers

/-- `Envelope`. -/
structure Envelope (T : Type) where
  /-- The message codec. -/
  codec : MessageCodec T
  /-- The layers. -/
  layers : Layers

/-- `envelopeError`. -/
def envelopeError (code message : String) : Fault := .validation code [⟨"envelope", message⟩]

namespace Envelope

variable {T : Type}

/-- The envelope over a codec after a chain of declarations. -/
def declared (codec : MessageCodec T) (declarations : List Declaration) : Envelope T :=
  ⟨codec, .declared declarations⟩

variable (L : Library) (env : Envelope T)

/-- `frame`: the builder, with every declared layer. -/
def frame (message : T) : Except Fault FrameSpec :=
  if env.layers.authenticityDeclared ∧ env.layers.signer.isNone then
    .error (envelopeError "ENVELOPE_SIGNER"
      ("The envelope declares authenticity but has no signatory: " ++
        "declare signed(signatory) to build frames"))
  else if env.layers.sealedDeclared ∧ env.layers.sealer.isNone then
    .error (envelopeError "ENVELOPE_SEALER"
      ("The envelope declares confidentiality but has no encryptor: " ++
        "declare sealed(encryptor) to build frames"))
  else
    .ok { message := some (slotOf env.codec message)
          compressor := env.layers.compressor
          encryptor := env.layers.sealer
          signer := env.layers.signer }

/-- `checkAuthenticity`. -/
def checkAuthenticity (received : Octets) : Except Fault Unit :=
  if ¬ env.layers.authenticityDeclared then .ok ()
  else
    match env.layers.resolveVerifier with
    | none => .error (envelopeError "ENVELOPE_VERIFIER"
        ("The envelope declares authenticity but its signatory exposes no verifier: " ++
          "declare verified(verifier) to unwrap frames"))
    | some verifier => do
        let fields ← decoded L received
        if fields.signature.isNone then
          .error (envelopeError "ENVELOPE_UNSIGNED"
            ("The envelope declares authenticity but the frame is unsigned: " ++
              "refusing the downgrade"))
        else verifier.verifyFrame received

/-- `unwrap`. -/
def unwrap (received : Octets) : Except Fault T := do
  let _ ← env.checkAuthenticity L received
  let fields ← decoded L received
  if fields.confidentiality.isSome then
    match env.layers.opener with
    | none => .error (envelopeError "ENVELOPE_OPENER"
        ("The frame is sealed but the envelope has no decryptor: " ++
          "declare sealed(decryptor) to unwrap it"))
    | some opener => decryptMessage L received env.codec opener env.layers.inflator
  else if env.layers.sealedDeclared then
    .error (envelopeError "ENVELOPE_CLEARTEXT"
      ("The envelope declares confidentiality but the frame body is cleartext: " ++
        "refusing the downgrade"))
  else if fields.compactness.isSome then
    match env.layers.inflator with
    | none => .error (envelopeError "ENVELOPE_INFLATOR"
        ("The frame is compressed but the envelope has no inflator: " ++
          "declare compressed(inflator) to unwrap it"))
    | some inflator => inflateMessage L received env.codec inflator
  else message L received env.codec

end Envelope

/-! ### Declarations -/

/-- A half is the one the last declaration that has it contributed. -/
theorem foldl_or {α σ δ : Type} (half : σ → Option α) (given : δ → Option α) (step : σ → δ → σ)
    (hstep : ∀ s d, half (step s d) = (given d).or (half s)) (s : σ) (ds : List δ) :
    half (ds.foldl step s) = ((ds.filterMap given).getLast?).or (half s) := by
  induction ds using List.reverseRecOn with
  | nil => rfl
  | append_singleton ds d ih =>
    rw [List.foldl_append, List.foldl_cons, List.foldl_nil, hstep, ih, List.filterMap_append]
    cases hgiven : given d with
    | none => simp [hgiven]
    | some a => simp [hgiven]

section Declared

variable (declarations : List Declaration)

/-- The halves of an envelope are the last that were declared. -/
structure LastHalves (layers : Layers) : Prop where
  signer : layers.signer = (declarations.filterMap (·.patch.signer)).getLast?
  verifier : layers.verifier = (declarations.filterMap (·.patch.verifier)).getLast?
  sealer : layers.sealer = (declarations.filterMap (·.patch.sealer)).getLast?
  opener : layers.opener = (declarations.filterMap (·.patch.opener)).getLast?
  compressor : layers.compressor = (declarations.filterMap (·.patch.compressor)).getLast?
  inflator : layers.inflator = (declarations.filterMap (·.patch.inflator)).getLast?

theorem lastHalves_declared : LastHalves declarations (.declared declarations) := by
  have hlast : ∀ {α : Type} (half : Layers → Option α)
      (_ : ∀ s d : Layers, half (s.withPatch d) = (half d).or (half s)) (_ : half {} = none),
      half (.declared declarations) = (declarations.filterMap fun d => half d.patch).getLast? := by
    intro α half hwith hnone
    rw [Layers.declared, foldl_or half (fun d => half d.patch) _ (fun s d => hwith s d.patch),
      hnone, Option.or_none]
  constructor
  · exact hlast Layers.signer (fun _ _ => rfl) rfl
  · exact hlast Layers.verifier (fun _ _ => rfl) rfl
  · exact hlast Layers.sealer (fun _ _ => rfl) rfl
  · exact hlast Layers.opener (fun _ _ => rfl) rfl
  · exact hlast Layers.compressor (fun _ _ => rfl) rfl
  · exact hlast Layers.inflator (fun _ _ => rfl) rfl

theorem isSome_getLast?_filterMap {α β : Type} (f : α → Option β) (as : List α) :
    (as.filterMap f).getLast?.isSome = true ↔ ∃ a ∈ as, (f a).isSome = true := by
  rw [List.getLast?_isSome, ne_eq, List.filterMap_eq_nil_iff]
  simp only [not_forall, exists_prop, Option.isSome_iff_ne_none, ne_eq]

/-- **A declaration is never taken back**, whatever is declared before or after. -/
theorem authenticityDeclared_declared :
    (Layers.declared declarations).authenticityDeclared = true ↔
      ∃ d ∈ declarations, d.isAuthenticity = true := by
  have h := lastHalves_declared declarations
  rw [Layers.authenticityDeclared, Bool.or_eq_true, h.signer, h.verifier,
    isSome_getLast?_filterMap, isSome_getLast?_filterMap]
  constructor
  · rintro (⟨d, hmem, hd⟩ | ⟨d, hmem, hd⟩)
    · exact ⟨d, hmem, by cases d <;> first | rfl | cases hd⟩
    · exact ⟨d, hmem, by cases d <;> first | rfl | cases hd⟩
  · rintro ⟨d, hmem, hd⟩
    cases d with
    | signed signatory => exact .inl ⟨_, hmem, rfl⟩
    | verified verifier => exact .inr ⟨_, hmem, rfl⟩
    | sealed keys => cases hd
    | compressed compression => cases hd

theorem sealedDeclared_declared :
    (Layers.declared declarations).sealedDeclared = true ↔
      ∃ d ∈ declarations, d.isConfidentiality = true := by
  have h := lastHalves_declared declarations
  rw [Layers.sealedDeclared, Bool.or_eq_true, h.sealer, h.opener,
    isSome_getLast?_filterMap, isSome_getLast?_filterMap]
  constructor
  · rintro (⟨d, hmem, hd⟩ | ⟨d, hmem, hd⟩)
    · exact ⟨d, hmem, by cases d <;> first | rfl | cases hd⟩
    · exact ⟨d, hmem, by cases d <;> first | rfl | cases hd⟩
  · rintro ⟨d, hmem, hd⟩
    cases d with
    | sealed keys =>
      cases keys with
      | wrap a => exact .inl ⟨_, hmem, rfl⟩
      | unwrap b => exact .inr ⟨_, hmem, rfl⟩
      | both a b => exact .inl ⟨_, hmem, rfl⟩
    | signed signatory => cases hd
    | verified verifier => cases hd
    | compressed compression => cases hd

end Declared

/-! ### What an envelope accepts -/

/-- What is under the layers a frame carries, reversed with the halves there are. -/
def Reversed (fields : FrameFields) (layers : Layers) (bodyDer : Octets) : Prop :=
  ∃ plaintext,
    (match fields.confidentiality with
      | none => plaintext = fields.bodyDer
      | some info => ∃ opener, layers.opener = some opener ∧
          opener.decrypt ⟨info.algorithmOid, info.envelopeDer, fields.bodyDer⟩ = .ok plaintext) ∧
    match fields.compactness with
      | none => bodyDer = plaintext
      | some info => ∃ inflator, layers.inflator = some inflator ∧
          inflator.decompress (info.body plaintext) = .ok bodyDer

/-- The frame has a signature, and the verifier accepts it. -/
def Authentic (layers : Layers) (der : Octets) (fields : FrameFields) : Prop :=
  fields.signature.isSome = true ∧ ∃ verifier, layers.resolveVerifier = some verifier ∧
    verifier.verifyFrame der = .ok ()

section Unwrap

variable {L : Library} {T : Type} {env : Envelope T} {der : Octets} {m : T} {fields : FrameFields}

theorem checkAuthenticity_iff (hdecoded : decoded L der = .ok fields) :
    env.checkAuthenticity L der = .ok () ↔
      (env.layers.authenticityDeclared = true → Authentic env.layers der fields) := by
  rw [Envelope.checkAuthenticity]
  by_cases hdeclared : env.layers.authenticityDeclared = true
  · rw [if_neg (not_not.mpr hdeclared)]
    simp only [hdeclared, forall_const, Authentic]
    cases hverifier : env.layers.resolveVerifier with
    | none => simp
    | some verifier =>
      simp only [bind_eq_of_ok hdecoded]
      cases hsignature : fields.signature with
      | none => simp
      | some signature => simp
  · rw [if_pos hdeclared]
    exact ⟨fun _ h => absurd h hdeclared, fun _ => rfl⟩

theorem message_iff (hdecoded : decoded L der = .ok fields) (hconf : fields.confidentiality = none)
    (hcompact : fields.compactness = none) {codec : MessageCodec T} :
    message L der codec = .ok m ↔ codec.decode fields.bodyDer = .ok m := by
  rw [message, bind_eq_of_ok hdecoded, hconf, hcompact]
  rfl

theorem inflateMessage_iff (hdecoded : decoded L der = .ok fields)
    (hconf : fields.confidentiality = none) {info : CompactnessInfo}
    (hcompact : fields.compactness = some info) {codec : MessageCodec T}
    {inflator : BodyInflator} :
    inflateMessage L der codec inflator = .ok m ↔
      ∃ bodyDer, inflator.decompress (info.body fields.bodyDer) = .ok bodyDer ∧
        codec.decode bodyDer = .ok m := by
  rw [inflateMessage, bind_eq_of_ok hdecoded, hconf, hcompact]
  exact bind_ok_iff

theorem decryptMessage_iff (hdecoded : decoded L der = .ok fields) {info : ConfidentialityInfo}
    (hconf : fields.confidentiality = some info) {codec : MessageCodec T}
    {decryptor : BodyDecryptor} {inflator : Option BodyInflator} :
    decryptMessage L der codec decryptor inflator = .ok m ↔ ∃ plaintext bodyDer,
      decryptor.decrypt ⟨info.algorithmOid, info.envelopeDer, fields.bodyDer⟩ = .ok plaintext ∧
      (match fields.compactness with
        | none => bodyDer = plaintext
        | some info => ∃ i, inflator = some i ∧
            i.decompress (info.body plaintext) = .ok bodyDer) ∧
      codec.decode bodyDer = .ok m := by
  rw [decryptMessage, bind_eq_of_ok hdecoded, hconf]
  dsimp only
  cases hcompact : fields.compactness with
  | none =>
    rw [if_neg (by simp)]
    simp only [bind_ok_iff, inflate, Except.ok.injEq, exists_eq_left', exists_and_left,
      exists_eq_left]
  | some compactness =>
    cases inflator with
    | none =>
      rw [if_pos ⟨rfl, rfl⟩]
      simp
    | some inflator =>
      rw [if_neg (by simp)]
      simp only [bind_ok_iff, inflate, Option.some.injEq, exists_eq_left', exists_and_left]

/-- Past the signature, an envelope accepts what it can reverse. -/
theorem unwrap_iff_of_checked (hdecoded : decoded L der = .ok fields)
    (hcheck : env.checkAuthenticity L der = .ok ()) :
    env.unwrap L der = .ok m ↔
      (env.layers.sealedDeclared = true → fields.confidentiality.isSome = true) ∧
      ∃ bodyDer, Reversed fields env.layers bodyDer ∧ env.codec.decode bodyDer = .ok m := by
  rw [Envelope.unwrap, bind_eq_of_ok hcheck, bind_eq_of_ok hdecoded]
  cases hconf : fields.confidentiality with
  | some info =>
    -- the frame is sealed: only an opener helps
    simp only [Option.isSome_some, if_true, implies_true, true_and, Reversed, hconf]
    cases hopener : env.layers.opener with
    | none => simp
    | some opener =>
      rw [decryptMessage_iff hdecoded hconf]
      constructor
      · rintro ⟨plaintext, bodyDer, hplain, hbody, hm⟩
        exact ⟨bodyDer, ⟨plaintext, ⟨opener, rfl, hplain⟩, hbody⟩, hm⟩
      · rintro ⟨bodyDer, ⟨plaintext, ⟨opener', heq, hplain⟩, hbody⟩, hm⟩
        cases heq
        exact ⟨plaintext, bodyDer, hplain, hbody, hm⟩
  | none =>
    simp only [Option.isSome_none, Bool.false_eq_true, if_false, Reversed, hconf, exists_eq_left]
    by_cases hsealed : env.layers.sealedDeclared = true
    · -- the frame is not sealed although it ought to be
      rw [if_pos hsealed]
      simp [hsealed]
    · have himp : env.layers.sealedDeclared = true → False := hsealed
      rw [if_neg hsealed, and_iff_right himp]
      cases hcompact : fields.compactness with
      | none =>
        simp only [Option.isSome_none, Bool.false_eq_true, if_false, exists_eq_left]
        exact message_iff hdecoded hconf hcompact
      | some info =>
        simp only [Option.isSome_some, if_true]
        cases hinflator : env.layers.inflator with
        | none => simp
        | some inflator =>
          simp only [Option.some.injEq, exists_eq_left']
          exact inflateMessage_iff hdecoded hconf hcompact

/-- **What an envelope accepts.** -/
theorem unwrap_iff : env.unwrap L der = .ok m ↔ ∃ fields, decoded L der = .ok fields ∧
    (env.layers.authenticityDeclared = true → Authentic env.layers der fields) ∧
    (env.layers.sealedDeclared = true → fields.confidentiality.isSome = true) ∧
    ∃ bodyDer, Reversed fields env.layers bodyDer ∧ env.codec.decode bodyDer = .ok m := by
  constructor
  · intro h
    obtain ⟨u, hcheck, hrest⟩ := bind_ok h
    obtain ⟨fields, hdecoded, -⟩ := bind_ok hrest
    obtain ⟨hsealed, hbody⟩ := (unwrap_iff_of_checked hdecoded hcheck).mp h
    exact ⟨fields, hdecoded, (checkAuthenticity_iff hdecoded).mp hcheck, hsealed, hbody⟩
  · rintro ⟨fields, hdecoded, hauthentic, hsealed, hbody⟩
    have hcheck := (checkAuthenticity_iff hdecoded).mpr hauthentic
    exact (unwrap_iff_of_checked hdecoded hcheck).mpr ⟨hsealed, hbody⟩

end Unwrap

/-! ### What an envelope sends -/

section Sent

variable {L : Library} {T : Type} {env : Envelope T} {m : T} {spec : FrameSpec}

/-- The builder of an envelope has its message and its layers. -/
structure Framed (env : Envelope T) (m : T) (spec : FrameSpec) : Prop where
  message : spec.message = some (slotOf env.codec m)
  compressor : spec.compressor = env.layers.compressor
  encryptor : spec.encryptor = env.layers.sealer
  signer : spec.signer = env.layers.signer
  /-- Authenticity is declared by a signatory. -/
  signed : env.layers.authenticityDeclared = true → env.layers.signer.isSome = true
  /-- Confidentiality is declared by an encryptor. -/
  sealed : env.layers.sealedDeclared = true → env.layers.sealer.isSome = true

theorem frame_ok (h : env.frame m = .ok spec) : Framed env m spec := by
  unfold Envelope.frame at h
  split at h
  · cases h
  · next hsigner =>
    split at h
    · cases h
    · next hsealer =>
      cases h
      refine ⟨rfl, rfl, rfl, rfl, fun hdeclared => ?_, fun hdeclared => ?_⟩
      · by_contra hnone
        exact hsigner ⟨hdeclared, by simpa using hnone⟩
      · by_contra hnone
        exact hsealer ⟨hdeclared, by simpa using hnone⟩

/-- A composed frame has a signature when a signatory is given, and an envelope when an encryptor
is. -/
theorem ReadsBack.carries {der bodyDer : Octets} {fields : FrameFields}
    (h : ReadsBack L spec der bodyDer fields) :
    (spec.signer.isSome = true → fields.signature.isSome = true) ∧
      (spec.encryptor.isSome = true → fields.confidentiality.isSome = true) := by
  constructor
  · intro hsome
    obtain ⟨signer, hsigner⟩ := Option.isSome_iff_exists.mp hsome
    have hsignature := h.signature
    rw [hsigner] at hsignature
    obtain ⟨prehash, signature, -, -, heq⟩ := hsignature
    rw [heq]
    rfl
  · intro hsome
    obtain ⟨encryptor, hencryptor⟩ := Option.isSome_iff_exists.mp hsome
    have hconf := h.confidentiality
    rw [hencryptor] at hconf
    obtain ⟨sealInput, sealed, envelope, -, -, -, heq, -⟩ := hconf
    rw [heq]
    rfl

/-- A frame with the signature of a signatory, over the digest it is checked against. -/
def SignedBy (L : Library) (signer : Signatory) (der : Octets) (fields : FrameFields) : Prop :=
  ∃ prehash signature, signaturePrehash L der = .ok prehash ∧
    signer.signPrehash prehash = .ok signature ∧
    fields.signature = some ⟨signer.signatureAlgorithmOid, signer.digestAlgorithmOid, signature⟩

/-- A frame whose envelope and body are those an encryptor made. -/
def SealedBy (sealer : BodyEncryptor) (fields : FrameFields) : Prop :=
  ∃ sealInput contentOid sealed algorithmOid, sealer.encrypt sealInput contentOid = .ok sealed ∧
    fields.confidentiality = some ⟨algorithmOid, sealed.envelopeDer⟩ ∧
    fields.bodyDer = sealed.ciphertext

theorem ReadsBack.signedBy {der bodyDer : Octets} {fields : FrameFields} {signer : Signatory}
    (h : ReadsBack L spec der bodyDer fields) (hsigner : spec.signer = some signer) :
    SignedBy L signer der fields := by
  have hsignature := h.signature
  rw [hsigner] at hsignature
  exact hsignature

theorem ReadsBack.sealedBy {der bodyDer : Octets} {fields : FrameFields} {sealer : BodyEncryptor}
    (h : ReadsBack L spec der bodyDer fields) (hsealer : spec.encryptor = some sealer) :
    SealedBy sealer fields := by
  have hconf := h.confidentiality
  rw [hsealer] at hconf
  obtain ⟨sealInput, sealed, envelope, -, hencrypt, -, heq, hbody⟩ := hconf
  exact ⟨sealInput, _, sealed, _, hencrypt, heq, hbody⟩

end Sent

/-! ### No downgrade -/

section Downgrade

variable {L : Library} {T : Type}

theorem sealed_of_opened {layers : Layers} {fields : FrameFields} {bodyDer : Octets}
    (h : Reversed fields layers bodyDer) (hconf : fields.confidentiality.isSome = true) :
    layers.sealedDeclared = true := by
  obtain ⟨plaintext, hplain, -⟩ := h
  obtain ⟨info, hinfo⟩ := Option.isSome_iff_exists.mp hconf
  rw [hinfo] at hplain
  obtain ⟨opener, hopener, -⟩ := hplain
  rw [Layers.sealedDeclared, hopener]
  exact Bool.or_true _

/-- **An envelope never downgrades.**  What it unwraps is signed when authenticity was declared,
is sealed exactly when confidentiality was, and is the decoding of what is under the layers the
frame carries.  What it frames has every declared signature and seal, whatever else the builder
is told; with metadata only they are those of the declared halves.  Every half is the last one
that was declared. -/
theorem envelope_never_downgrades (hL : L.Lawful) (codec : MessageCodec T)
    (declarations : List Declaration) :
    (∀ der m, (Envelope.declared codec declarations).unwrap L der = .ok m →
      ∃ fields bodyDer, decoded L der = .ok fields ∧
        ((∃ d ∈ declarations, d.isAuthenticity = true) →
          Authentic (.declared declarations) der fields) ∧
        ((∃ d ∈ declarations, d.isConfidentiality = true) ↔
          fields.confidentiality.isSome = true) ∧
        Reversed fields (.declared declarations) bodyDer ∧ codec.decode bodyDer = .ok m) ∧
    (∀ m spec calls spec' der, (Envelope.declared codec declarations).frame m = .ok spec →
      runCalls L calls spec = .ok spec' → build L spec' = .ok der →
      ∃ fields, decoded L der = .ok fields ∧
        ((∃ d ∈ declarations, d.isAuthenticity = true) → fields.signature.isSome = true) ∧
        ((∃ d ∈ declarations, d.isConfidentiality = true) →
          fields.confidentiality.isSome = true)) ∧
    (∀ m spec (calls : List MetadataCall) spec' der,
      (Envelope.declared codec declarations).frame m = .ok spec →
      runCalls L (calls.map .metadata) spec = .ok spec' → build L spec' = .ok der →
      ∃ fields, decoded L der = .ok fields ∧
        ((∃ d ∈ declarations, d.isAuthenticity = true) → ∃ signer,
          (Layers.declared declarations).signer = some signer ∧ SignedBy L signer der fields) ∧
        ((∃ d ∈ declarations, d.isConfidentiality = true) → ∃ sealer,
          (Layers.declared declarations).sealer = some sealer ∧ SealedBy sealer fields)) ∧
    LastHalves declarations (.declared declarations) := by
  simp only [← authenticityDeclared_declared, ← sealedDeclared_declared]
  refine ⟨?received, ?carried, ?declared, lastHalves_declared declarations⟩
  case received =>
    intro der m h
    obtain ⟨fields, hdecoded, hauthentic, hsealed, bodyDer, hreversed, hm⟩ := unwrap_iff.mp h
    exact ⟨fields, bodyDer, hdecoded, hauthentic, ⟨hsealed, sealed_of_opened hreversed⟩,
      hreversed, hm⟩
  case carried =>
    intro m spec calls spec' der hframe hcalls hbuild
    have hframed := frame_ok hframe
    obtain ⟨hvalid, hcompose⟩ := build_ok hbuild
    obtain ⟨bodyDer, fields, -, hdecoded, hreads⟩ := readsBack_of_compose hL hvalid hcompose
    have hkeep := layers_runCalls hcalls
    refine ⟨fields, hdecoded, fun hdeclared => ?_, fun hdeclared => ?_⟩
    · apply hreads.carries.1
      apply hkeep.1
      rw [hframed.signer]
      exact hframed.signed hdeclared
    · apply hreads.carries.2
      apply hkeep.2
      rw [hframed.encryptor]
      exact hframed.sealed hdeclared
  case declared =>
    intro m spec calls spec' der hframe hcalls hbuild
    have hframed := frame_ok hframe
    obtain ⟨hvalid, hcompose⟩ := build_ok hbuild
    obtain ⟨bodyDer, fields, -, hdecoded, hreads⟩ := readsBack_of_compose hL hvalid hcompose
    have hsame := sameLayers_runCalls hcalls
    refine ⟨fields, hdecoded, fun hdeclared => ?_, fun hdeclared => ?_⟩
    · obtain ⟨signer, hsigner⟩ := Option.isSome_iff_exists.mp (hframed.signed hdeclared)
      exact ⟨signer, hsigner, hreads.signedBy (hsame.signer.trans (hframed.signer.trans hsigner))⟩
    · obtain ⟨sealer, hsealer⟩ := Option.isSome_iff_exists.mp (hframed.sealed hdeclared)
      exact ⟨sealer, hsealer,
        hreads.sealedBy (hsame.encryptor.trans (hframed.encryptor.trans hsealer))⟩

end Downgrade

namespace Small

/-- An envelope that seals and compresses octets. -/
def envelope : Envelope Octets :=
  .declared (opaqueCodec (library frames))
    [.compressed (.both reverser unreverser),
      .sealed (.both (inverter "2.16.840.1.101.3.4.1.46") uninverter)]

/-- Metadata for a frame. -/
def calls : List MetadataCall :=
  [.withId (.octets [0x01, 0x02]), .withOrder (.bigint 7),
    .withMessageHasher (counter "2.16.840.1.101.3.4.2.8") none,
    .withWitnessHasher (counter "2.16.840.1.101.3.4.2.8")]

/-- Frame a message with the metadata, and build it. -/
def sent (m : Octets) : Except Fault Octets := do
  let spec ← envelope.frame m
  let spec ← runCalls (library frames) (calls.map .metadata) spec
  build (library frames) spec

theorem sent_ok {m der : Octets} (h : sent m = .ok der) : ∃ spec spec',
    envelope.frame m = .ok spec ∧
    runCalls (library frames) (calls.map .metadata) spec = .ok spec' ∧
    build (library frames) spec' = .ok der := by
  rw [sent] at h
  obtain ⟨spec, hframe, hrest⟩ := bind_ok_iff.mp h
  obtain ⟨spec', hcalls, hbuild⟩ := bind_ok_iff.mp hrest
  exact ⟨spec, spec', hframe, hcalls, hbuild⟩

/-- A frame of the same message without layers. -/
def cleartext : Except TightBeamError Octets :=
  toDer (frameOf none none none [0x30, 0x03, 0x04, 0x01, 0x2A] none)

end Small

/-- What the envelope sends is sealed, and it refuses the same message in the clear. -/
theorem cleartext_is_refused : ∃ der clear,
    Small.sent [0x2A] = .ok der ∧ Small.cleartext = .ok clear ∧
    ((decoded (Small.library Small.frames) der).map fun fields =>
      fields.confidentiality.isSome) = .ok true ∧
    (Small.envelope.unwrap (Small.library Small.frames) clear).toOption = none := by
  obtain ⟨received, sent, -, -⟩ := envelope_never_downgrades (Small.lawful Small.frames)
    (opaqueCodec (Small.library Small.frames))
    [.compressed (.both Small.reverser Small.unreverser),
      .sealed (.both (Small.inverter "2.16.840.1.101.3.4.1.46") Small.uninverter)]
  have hsent : (Small.sent [0x2A]).map List.length = .ok 147 := by decide +kernel
  have hclear : Small.cleartext.bind (fun clear => ((decoded (Small.library Small.frames) clear).map
      FrameFields.confidentiality).mapError fun _ => .other 0) = .ok none := by decide +kernel
  obtain ⟨der, hder, -⟩ := map_ok hsent
  obtain ⟨clear, hcleartext, hnone⟩ := bind_ok hclear
  refine ⟨der, clear, hder, hcleartext, ?_, ?_⟩
  · obtain ⟨spec, spec', hframe, hcalls, hbuild⟩ := Small.sent_ok hder
    obtain ⟨fields, hdecoded, -, hsealed⟩ := sent _ spec _ spec' der hframe hcalls hbuild
    rw [hdecoded]
    exact congrArg Except.ok (hsealed ⟨_, List.mem_cons_of_mem _ List.mem_cons_self, rfl⟩)
  · cases hm : Small.envelope.unwrap (Small.library Small.frames) clear with
    | error e => rfl
    | ok m =>
      obtain ⟨fields, bodyDer, hdecoded, -, hsealed, -, -⟩ := received clear m hm
      obtain ⟨info, hinfo, hconf⟩ := map_ok (mapError_ok hnone)
      rw [hdecoded] at hinfo
      cases hinfo
      have hsome := hsealed.mp ⟨_, List.mem_cons_of_mem _ List.mem_cons_self, rfl⟩
      rw [hconf] at hsome
      cases hsome

/-! ### Round trip -/

section RoundTrip

variable {L : Library} {T : Type}

/-- The verifier accepts the signatures of the signatory. -/
def Accepts (L : Library) (verifier : FrameVerifier) (signer : Signatory) : Prop :=
  ∀ {der fields}, decoded L der = .ok fields → SignedBy L signer der fields →
    verifier.verifyFrame der = .ok ()

/-- Every layer that is used has both halves. -/
structure Matched (L : Library) (layers : Layers) : Prop where
  /-- The verifier accepts what the signatory signs. -/
  authentic : ∀ signer, layers.signer = some signer →
    ∃ verifier, layers.resolveVerifier = some verifier ∧ Accepts L verifier signer
  /-- The opener undoes the sealer. -/
  sealed : ∀ sealer, layers.sealer = some sealer →
    ∃ opener, layers.opener = some opener ∧ Opens L opener sealer
  /-- The inflator undoes the compressor. -/
  compressed : ∀ compressor, layers.compressor = some compressor →
    ∃ inflator, layers.inflator = some inflator ∧ Inflates L inflator compressor

theorem reversed_of_openBody {fields : FrameFields} {layers : Layers} {decryptor : BodyDecryptor}
    {inflator : BodyInflator} {bodyDer : Octets}
    (h : openBody fields decryptor inflator = .ok bodyDer)
    (hopener : fields.confidentiality.isSome = true → layers.opener = some decryptor)
    (hinflator : fields.compactness.isSome = true → layers.inflator = some inflator) :
    Reversed fields layers bodyDer := by
  obtain ⟨plaintext, hplain, hbody⟩ := bind_ok h
  refine ⟨plaintext, ?_, ?_⟩
  · unfold decryptBody at hplain
    cases hconf : fields.confidentiality with
    | none => rw [hconf] at hplain; cases hplain; rfl
    | some info =>
      rw [hconf] at hplain hopener
      exact ⟨decryptor, hopener rfl, hplain⟩
  · cases hcompact : fields.compactness with
    | none => rw [hcompact] at hbody; cases hbody; rfl
    | some info =>
      rw [hcompact] at hbody hinflator
      exact ⟨inflator, hinflator rfl, hbody⟩

/-- A frame is sealed, or compressed, only when an encryptor, or a compressor, was given. -/
theorem ReadsBack.layers {spec : FrameSpec} {der bodyDer : Octets} {fields : FrameFields}
    (h : ReadsBack L spec der bodyDer fields) :
    (fields.confidentiality.isSome = true → ∃ encryptor, spec.encryptor = some encryptor) ∧
      (fields.compactness.isSome = true → ∃ compressor, spec.compressor = some compressor) := by
  constructor
  · intro hsome
    cases hencryptor : spec.encryptor with
    | none =>
      have hconf := h.confidentiality
      rw [hencryptor] at hconf
      rw [hconf] at hsome
      cases hsome
    | some encryptor => exact ⟨encryptor, rfl⟩
  · intro hsome
    cases hcompressor : spec.compressor with
    | none =>
      have hcompact := h.compactness
      rw [hcompressor] at hcompact
      rw [hcompact] at hsome
      cases hsome
    | some compressor => exact ⟨compressor, rfl⟩

/-- With matched halves the body comes back from under its layers. -/
theorem reversed_of_readsBack {layers : Layers} (hmatched : Matched L layers) {spec : FrameSpec}
    (hencryptor : spec.encryptor = layers.sealer) (hcompressor : spec.compressor = layers.compressor)
    {der bodyDer : Octets} {fields : FrameFields} (h : ReadsBack L spec der bodyDer fields) :
    Reversed fields layers bodyDer := by
  -- any halves do for a layer that is not used
  obtain ⟨decryptor, hopens⟩ : ∃ decryptor, ∀ encryptor, spec.encryptor = some encryptor →
      layers.opener = some decryptor ∧ Opens L decryptor encryptor := by
    cases hsealer : layers.sealer with
    | none => exact ⟨⟨fun _ => .ok []⟩, fun e he => by rw [hencryptor, hsealer] at he; cases he⟩
    | some sealer =>
      obtain ⟨opener, hopener, hopens⟩ := hmatched.sealed sealer hsealer
      refine ⟨opener, fun e he => ?_⟩
      rw [hencryptor, hsealer] at he
      cases he
      exact ⟨hopener, hopens⟩
  obtain ⟨inflator, hinflates⟩ : ∃ inflator, ∀ compressor, spec.compressor = some compressor →
      layers.inflator = some inflator ∧ Inflates L inflator compressor := by
    cases hused : layers.compressor with
    | none => exact ⟨⟨fun _ => .ok []⟩, fun c hc => by rw [hcompressor, hused] at hc; cases hc⟩
    | some compressor =>
      obtain ⟨inflator, hinflator, hinflates⟩ := hmatched.compressed compressor hused
      refine ⟨inflator, fun c hc => ?_⟩
      rw [hcompressor, hused] at hc
      cases hc
      exact ⟨hinflator, hinflates⟩
  have hopen := h.body decryptor inflator (fun e he => (hopens e he).2) fun c hc => (hinflates c hc).2
  apply reversed_of_openBody hopen
  · intro hsome
    obtain ⟨e, he⟩ := h.layers.1 hsome
    exact (hopens e he).1
  · intro hsome
    obtain ⟨c, hc⟩ := h.layers.2 hsome
    exact (hinflates c hc).1

/-- **What was framed is unwrapped**, through any layers that have both halves and with any
metadata. -/
theorem envelope_round_trip (hL : L.Lawful) {codec : MessageCodec T} (hcodec : codec.Inverse)
    {declarations : List Declaration} (hmatched : Matched L (.declared declarations)) {m : T}
    {spec spec' : FrameSpec} {calls : List MetadataCall} {der : Octets}
    (hframe : (Envelope.declared codec declarations).frame m = .ok spec)
    (hcalls : runCalls L (calls.map .metadata) spec = .ok spec')
    (hbuild : build L spec' = .ok der) :
    (Envelope.declared codec declarations).unwrap L der = .ok m := by
  have hframed := frame_ok hframe
  have hsame := sameLayers_runCalls hcalls
  obtain ⟨hvalid, hcompose⟩ := build_ok hbuild
  obtain ⟨bodyDer, fields, hbody, hdecoded, hreads⟩ := readsBack_of_compose hL hvalid hcompose
  have hencode : codec.encode m = .ok bodyDer := by
    rw [bodyDerOf, hsame.message, hframed.message] at hbody
    exact hbody
  have hreversed := reversed_of_readsBack hmatched (hsame.encryptor.trans hframed.encryptor)
    (hsame.compressor.trans hframed.compressor) hreads
  refine unwrap_iff.mpr ⟨fields, hdecoded, ?_, ?_, bodyDer, hreversed, hcodec hencode⟩
  · intro hdeclared
    obtain ⟨signer, hsigner⟩ := Option.isSome_iff_exists.mp (hframed.signed hdeclared)
    obtain ⟨verifier, hverifier, haccepts⟩ := hmatched.authentic signer hsigner
    have hspec : spec'.signer = some signer := hsame.signer.trans (hframed.signer.trans hsigner)
    refine ⟨hreads.carries.1 (by rw [hspec]; rfl), verifier, hverifier, ?_⟩
    exact haccepts hdecoded (hreads.signedBy hspec)
  · intro hdeclared
    apply hreads.carries.2
    rw [hsame.encryptor, hframed.encryptor]
    exact hframed.sealed hdeclared

/-- A message that was committed to, compressed, sealed and witnessed comes back. -/
theorem sealed_message_comes_back : ∃ der, Small.sent [0x2A] = .ok der ∧
    Small.envelope.unwrap (Small.library Small.frames) der = .ok [0x2A] := by
  have hsent : (Small.sent [0x2A]).map List.length = .ok 147 := by decide +kernel
  obtain ⟨der, hder, -⟩ := map_ok hsent
  obtain ⟨spec, spec', hframe, hcalls, hbuild⟩ := Small.sent_ok hder
  refine ⟨der, hder, ?_⟩
  refine envelope_round_trip (Small.lawful Small.frames) (opaqueCodec_inverse Small.codec_lawful)
    ?_ hframe hcalls hbuild
  constructor
  case authentic =>
    intro signer hsigner
    cases hsigner
  case sealed =>
    intro sealer hsealer
    cases hsealer
    exact ⟨Small.uninverter, rfl, Small.opens _ _⟩
  case compressed =>
    intro compressor hcompressor
    cases hcompressor
    exact ⟨Small.unreverser, rfl, Small.inflates _⟩

end RoundTrip

end Ws
end TightbeamExt
