import TightbeamExt.Ws.Compose

/-!
# Commitments to a body

A commitment hashes a preimage of a salt and a body.  A mode octet keeps the plain mode and the
hiding mode apart, and the length in front of the salt says where the body starts, so the pair can
be read off the preimage.  Detached commitments, the commitment in a composed frame and the two
checks all hash this preimage, and so a digest that tells preimages apart tells pairs apart.

## Main definitions

* `Opening`, `Opening.prove`, `Opening.verify` — detached commitments.
* `MadeFor` — a commitment is the digest for a salt and a body, under an algorithm.

## Main results

* `commitmentPreimage_injective` — the pair can be read off the preimage.
* `verify_iff`, `messageCommitmentVerdict_iff` — what the checks accept.
* `commitment_opens_only_as_made` — **a commitment opens for what it was made for.**
-/

namespace TightbeamExt
namespace Ws

open Asn (Octets)

/-! ### Detached commitments -/

/-- `constantTimeEqual`. -/
def constantTimeEqual (lhs rhs : Octets) : Bool := digestsEqual lhs rhs

/-- `Opening`: the salt and the committed body. -/
structure Opening where
  /-- The blinding salt. -/
  salt : Octets
  /-- The committed body. -/
  bodyDer : Octets
  deriving DecidableEq, Repr

/-- `ProvenCommitment`. -/
structure ProvenCommitment where
  /-- What is published. -/
  commitment : CarriedDigest
  /-- What is disclosed to verify it. -/
  opening : Opening
  deriving DecidableEq, Repr

namespace Opening

variable (L : Library)

/-- `prove`. -/
def prove (hasher : Hasher) (bodyDer salt : Octets) : Except Fault ProvenCommitment := do
  let preimage ← wasm L (commitmentPreimage L salt bodyDer)
  let digest ← hasher.digest preimage
  .ok ⟨⟨hasher.algorithmOid, digest⟩, ⟨salt, bodyDer⟩⟩

/-- `fromParts`. -/
def fromParts (salt bodyDer : Octets) : Opening := ⟨salt, bodyDer⟩

/-- `verify`. -/
def verify (opening : Opening) (hasher : Hasher) (commitment : CarriedDigest) :
    Except Fault Bool :=
  if commitment.algorithmOid ≠ hasher.algorithmOid then .ok false
  else do
    let preimage ← wasm L (commitmentPreimage L opening.salt opening.bodyDer)
    let recomputed ← hasher.digest preimage
    .ok (constantTimeEqual recomputed commitment.digest)

end Opening

/-! ### The preimage -/

/-- `CommitmentSalt::parse`: an empty salt is plain, one of 16 octets or more hides, and any other
is refused. -/
structure Library.ParsesSalts (L : Library) : Prop where
  /-- Plain. -/
  plain : ∀ salt, L.parseSalt salt = .ok .plain ↔ salt = []
  /-- Hiding. -/
  hides : ∀ salt, L.parseSalt salt = .ok .hiding ↔ 16 ≤ salt.length

theorem length_beBytes (n : ℕ) : (beBytes n).length = 8 := by
  rw [beBytes, List.length_map, List.length_range]

/-- A length below `2 ^ 64` is read off its octets. -/
theorem beBytes_injective {m n : ℕ} (hm : m < 2 ^ 64) (hn : n < 2 ^ 64)
    (h : beBytes m = beBytes n) : m = n := by
  simp only [beBytes, List.map_inj_left, List.mem_range] at h
  have hdigit : ∀ i < 8, m / 256 ^ (7 - i) % 256 = n / 256 ^ (7 - i) % 256 := by
    intro i hi
    have heq := congrArg UInt8.toNat (h i hi)
    simpa only [UInt8.toNat_ofNat'] using heq
  have h₀ := hdigit 0 (by decide)
  have h₁ := hdigit 1 (by decide)
  have h₂ := hdigit 2 (by decide)
  have h₃ := hdigit 3 (by decide)
  have h₄ := hdigit 4 (by decide)
  have h₅ := hdigit 5 (by decide)
  have h₆ := hdigit 6 (by decide)
  have h₇ := hdigit 7 (by decide)
  norm_num at h₀ h₁ h₂ h₃ h₄ h₅ h₆ h₇
  omega

variable {L : Library}

/-- What a preimage is of. -/
theorem commitmentPreimage_cases (hsalt : L.ParsesSalts) {salt bodyDer preimage : Octets}
    (h : commitmentPreimage L salt bodyDer = .ok preimage) :
    (salt = [] ∧ preimage = 0x00 :: bodyDer) ∨
      (16 ≤ salt.length ∧ preimage = 0x01 :: (beBytes salt.length ++ salt ++ bodyDer)) := by
  obtain ⟨mode, hmode, h⟩ := bind_ok h
  cases mode
  · cases h
    exact .inl ⟨(hsalt.plain salt).mp hmode, rfl⟩
  · cases h
    exact .inr ⟨(hsalt.hides salt).mp hmode, rfl⟩

/-- The salts that are taken. -/
theorem commitmentPreimage_ok_iff (hsalt : L.ParsesSalts) (salt bodyDer : Octets) :
    (∃ preimage, commitmentPreimage L salt bodyDer = .ok preimage) ↔
      salt = [] ∨ 16 ≤ salt.length := by
  constructor
  · rintro ⟨preimage, h⟩
    rcases commitmentPreimage_cases hsalt h with ⟨hempty, -⟩ | ⟨hlong, -⟩
    · exact .inl hempty
    · exact .inr hlong
  · rintro (hempty | hlong)
    · refine ⟨0x00 :: bodyDer, ?_⟩
      rw [commitmentPreimage, (hsalt.plain salt).mpr hempty]
      rfl
    · refine ⟨0x01 :: (beBytes salt.length ++ salt ++ bodyDer), ?_⟩
      rw [commitmentPreimage, (hsalt.hides salt).mpr hlong]
      rfl

/-- **The pair can be read off the preimage.** -/
theorem commitmentPreimage_injective (hsalt : L.ParsesSalts) {s₁ s₂ b₁ b₂ preimage : Octets}
    (hs₁ : s₁.length < 2 ^ 64) (hs₂ : s₂.length < 2 ^ 64)
    (h₁ : commitmentPreimage L s₁ b₁ = .ok preimage)
    (h₂ : commitmentPreimage L s₂ b₂ = .ok preimage) : s₁ = s₂ ∧ b₁ = b₂ := by
  rcases commitmentPreimage_cases hsalt h₁ with ⟨rfl, rfl⟩ | ⟨-, rfl⟩
  · rcases commitmentPreimage_cases hsalt h₂ with ⟨rfl, heq⟩ | ⟨-, heq⟩
    · exact ⟨rfl, List.tail_eq_of_cons_eq heq⟩
    · exact absurd (List.head_eq_of_cons_eq heq) (by decide)
  · rcases commitmentPreimage_cases hsalt h₂ with ⟨rfl, heq⟩ | ⟨-, heq⟩
    · exact absurd (List.head_eq_of_cons_eq heq) (by decide)
    · -- the length comes first and has eight octets, so it says where the salt ends
      have htail := List.tail_eq_of_cons_eq heq
      rw [List.append_assoc, List.append_assoc] at htail
      obtain ⟨hframe, hrest⟩ := List.append_inj htail (by rw [length_beBytes, length_beBytes])
      exact List.append_inj hrest (beBytes_injective hs₁ hs₂ hframe)

/-! ### What is hashed -/

/-- The commitment is the digest of the preimage of a salt and a body, under an algorithm. -/
def MadeFor (L : Library) (digest : Octets → Except Fault Octets) (algorithmOid : String)
    (salt bodyDer : Octets) (commitment : CarriedDigest) : Prop :=
  ∃ preimage, commitmentPreimage L salt bodyDer = .ok preimage ∧
    digest preimage = .ok commitment.digest ∧ commitment.algorithmOid = algorithmOid

/-- Two preimages do not have one digest. -/
def Hasher.Injective (hasher : Hasher) : Prop :=
  ∀ {x y digest}, hasher.digest x = .ok digest → hasher.digest y = .ok digest → x = y

/-- The comparison of digests is equality. -/
theorem digestsEqual_iff {left right : Octets} : digestsEqual left right = true ↔ left = right := by
  -- the differences collected so far are zero when all octets so far agree
  have hdiff : ∀ (l r : Octets) (acc : UInt8), l.length = r.length →
      ((List.zipWith (· ^^^ ·) l r).foldl (· ||| ·) acc = 0 ↔ acc = 0 ∧ l = r) := by
    intro l
    induction l with
    | nil =>
      intro r acc hlen
      rw [List.length_nil, eq_comm, List.length_eq_zero_iff] at hlen
      simp [hlen]
    | cons x l ih =>
      intro r acc hlen
      cases r with
      | nil => cases hlen
      | cons y r =>
        rw [List.zipWith_cons_cons, List.foldl_cons, ih r _ (Nat.succ.inj hlen),
          UInt8.or_eq_zero_iff, UInt8.xor_eq_zero_iff, List.cons.injEq, and_assoc]
  unfold digestsEqual
  constructor
  · intro h
    split at h
    · cases h
    · next hlen => exact ((hdiff left right 0 (not_not.mp hlen)).mp (by simpa using h)).2
  · rintro rfl
    exact digestsEqual_self left

theorem Opening.prove_iff {hasher : Hasher} {bodyDer salt : Octets} {proven : ProvenCommitment} :
    Opening.prove L hasher bodyDer salt = .ok proven ↔
      MadeFor L hasher.digest hasher.algorithmOid salt bodyDer proven.commitment ∧
        proven.opening = .fromParts salt bodyDer := by
  constructor
  · intro h
    obtain ⟨preimage, hpreimage, h⟩ := bind_ok h
    obtain ⟨digest, hdigest, h⟩ := bind_ok h
    cases h
    exact ⟨⟨preimage, wasm_ok hpreimage, hdigest, rfl⟩, rfl⟩
  · obtain ⟨⟨algorithmOid, digest⟩, opening⟩ := proven
    rintro ⟨⟨preimage, hpreimage, hdigest, hoid⟩, hopening⟩
    simp only at hdigest hoid hopening
    rw [hoid, hopening, Opening.prove, hpreimage]
    show (hasher.digest preimage).bind _ = _
    rw [hdigest]
    rfl

theorem Opening.verify_iff {opening : Opening} {hasher : Hasher} {commitment : CarriedDigest} :
    opening.verify L hasher commitment = .ok true ↔
      MadeFor L hasher.digest hasher.algorithmOid opening.salt opening.bodyDer commitment := by
  unfold Opening.verify
  constructor
  · intro h
    split at h
    · cases h
    · next hoid =>
      obtain ⟨preimage, hpreimage, h⟩ := bind_ok h
      obtain ⟨recomputed, hdigest, h⟩ := bind_ok h
      have heq := digestsEqual_iff.mp (Except.ok.inj h)
      exact ⟨preimage, wasm_ok hpreimage, heq ▸ hdigest, not_not.mp hoid⟩
  · rintro ⟨preimage, hpreimage, hdigest, hoid⟩
    rw [if_neg (not_not.mpr hoid), hpreimage]
    show (hasher.digest preimage).bind _ = _
    rw [hdigest]
    exact congrArg Except.ok (digestsEqual_self commitment.digest)

theorem verdictOf_iff {carried : Option CarriedDigest} {hasher : Hasher}
    {preimage : Except TightBeamError Octets} :
    verdictOf L carried hasher preimage = .ok .verified ↔
      ∃ commitment octets, carried = some commitment ∧ preimage = .ok octets ∧
        hasher.digest octets = .ok commitment.digest ∧
        commitment.algorithmOid = hasher.algorithmOid := by
  cases carried with
  | none =>
    constructor
    · intro h
      cases h
    · rintro ⟨_, _, hnone, -⟩
      cases hnone
  | some commitment =>
    rw [verdictOf]
    constructor
    · intro h
      split at h
      · cases h
      · next hoid =>
        obtain ⟨octets, hpreimage, h⟩ := bind_ok h
        obtain ⟨recomputed, hdigest, h⟩ := bind_ok h
        split at h
        · next hequal =>
          rw [digestsEqual_iff.mp hequal] at hdigest
          exact ⟨commitment, octets, rfl, wasm_ok hpreimage, hdigest, not_not.mp hoid⟩
        · cases h
    · rintro ⟨_, octets, hsome, hpreimage, hdigest, hoid⟩
      cases hsome
      rw [if_neg (not_not.mpr hoid), hpreimage]
      show (hasher.digest octets).bind _ = _
      rw [hdigest]
      exact if_pos (digestsEqual_self commitment.digest)

theorem messageCommitmentVerdict_iff {der salt : Octets} {fields : FrameFields} {hasher : Hasher}
    (h : decoded L der = .ok fields) :
    messageCommitmentVerdict L der salt hasher = .ok .verified ↔
      ∃ commitment, fields.messageIntegrity = some commitment ∧
        MadeFor L hasher.digest hasher.algorithmOid salt fields.bodyDer commitment := by
  rw [messageCommitmentVerdict, h]
  show verdictOf L fields.messageIntegrity hasher (commitmentPreimage L salt fields.bodyDer) = _ ↔ _
  rw [verdictOf_iff]
  constructor
  · rintro ⟨commitment, octets, hcarried, hmade⟩
    exact ⟨commitment, hcarried, octets, hmade⟩
  · rintro ⟨commitment, hcarried, octets, hmade⟩
    exact ⟨commitment, octets, hcarried, hmade⟩

/-- Under a digest that tells preimages apart a commitment is made for one salt, one body and one
algorithm. -/
theorem MadeFor.iff_eq (hsalt : L.ParsesSalts) {maker hasher : Hasher}
    (hdigest : maker.digest = hasher.digest) (hinj : hasher.Injective) {oid oid' : String}
    {salt salt' bodyDer bodyDer' : Octets} {commitment : CarriedDigest}
    (hlen : salt.length < 2 ^ 64) (hlen' : salt'.length < 2 ^ 64)
    (h : MadeFor L maker.digest oid salt bodyDer commitment) :
    MadeFor L hasher.digest oid' salt' bodyDer' commitment ↔
      salt' = salt ∧ bodyDer' = bodyDer ∧ oid' = oid := by
  rw [hdigest] at h
  constructor
  · intro h'
    obtain ⟨preimage, hpreimage, hmade, hoid⟩ := h
    obtain ⟨preimage', hpreimage', hmade', hoid'⟩ := h'
    obtain rfl := hinj hmade' hmade
    obtain ⟨hs, hb⟩ := commitmentPreimage_injective hsalt hlen' hlen hpreimage' hpreimage
    exact ⟨hs, hb, hoid'.symm.trans hoid⟩
  · rintro ⟨rfl, rfl, rfl⟩
    exact h

/-! ### In a frame -/

/-- A frame carries a commitment to its plaintext body. -/
structure Commits (L : Library) (maker : Hasher) (salt bodyDer der : Octets) (fields : FrameFields)
    (commitment : CarriedDigest) : Prop where
  /-- The fields are those of the frame. -/
  decoded : decoded L der = .ok fields
  /-- It is among them. -/
  carried : fields.messageIntegrity = some commitment
  /-- It was made for the body, under the algorithm of the hasher as the library spells it. -/
  made : MadeFor L maker.digest (L.spelled maker.algorithmOid) salt bodyDer commitment
  /-- The library spells it as the hasher does unless that writes needless zeros. -/
  spelling : isPlainOid maker.algorithmOid = true →
    L.spelled maker.algorithmOid = maker.algorithmOid
  /-- The frame shows the body when it is neither sealed nor compressed. -/
  plaintext : fields.confidentiality = none → fields.compactness = none → fields.bodyDer = bodyDer

/-- A carried body that is neither sealed nor compressed is the body. -/
theorem carried_of_plain {spec : FrameSpec} {bodyDer sealInput carried : Octets}
    {compactness : Option CompressedData} {confidentiality : Option AuthEnvelopedData}
    (hcompressed : Compressed L spec bodyDer compactness sealInput)
    (hsealed : Sealed L spec sealInput confidentiality carried)
    (hopen : confidentiality = none) (hflat : compactness = none) : carried = bodyDer := by
  unfold Compressed at hcompressed
  unfold Sealed at hsealed
  split at hsealed
  · split at hcompressed
    · exact hsealed.2.trans hcompressed.2
    · obtain ⟨_, _, _, _, -, -, -, -, hsome, -⟩ := hcompressed
      rw [hflat] at hsome
      cases hsome
  · obtain ⟨_, _, -, -, hsome, -⟩ := hsealed
    rw [hopen] at hsome
    cases hsome

/-- **`compose` commits to the body**, whatever layers it puts over it. -/
theorem commits_of_compose (hL : L.Lawful) {spec : FrameSpec} {der : Octets} {maker : Hasher}
    {salt : Option Octets} (h : compose L spec = .ok der)
    (hspec : spec.messageIntegrity = some ⟨maker, salt⟩) :
    ∃ bodyDer fields commitment, bodyDerOf L spec = .ok bodyDer ∧
      Commits L maker (salt.getD []) bodyDer der fields commitment := by
  obtain ⟨bodyDer, sealInput, carried, previousHash, matrix, integrity, compactness,
    confidentiality, witness, nonrepudiation, hbody, -, -, hcommitted, hcompressed, hsealed, -, -,
    hf⟩ := fromDer_compose hL h
  obtain ⟨parametersDer, hparameters, -⟩ := shown_compressed hcompressed
  obtain ⟨envelopeDer, henvelope, -⟩ := shown_sealed hL hsealed
  unfold Committed at hcommitted
  rw [hspec] at hcommitted
  obtain ⟨preimage, digest, oid, hpreimage, hdigest, hoid, rfl⟩ := hcommitted
  have hspelled := spelled_of_parseOid hoid
  refine ⟨bodyDer, _, ⟨L.oidText oid, digest⟩, hbody,
    decoded_of_fromDer hf hparameters henvelope, rfl, ?_, ?_, ?_⟩
  · exact ⟨preimage, hpreimage, hdigest, hspelled.symm⟩
  · intro hplain
    exact hspelled.trans (hL.oidText hplain hoid)
  · intro hopen hflat
    refine carried_of_plain hcompressed hsealed ?_ (Option.map_eq_none_iff.mp hflat)
    -- an envelope that is there is shown
    cases confidentiality with
    | none => rfl
    | some envelope =>
      obtain ⟨envelopeDer', -, rfl⟩ := map_ok henvelope
      cases hopen

/-- **A commitment opens for what it was made for.**  The pair of salt and body can be read off the
preimage, whose salts are the empty one and those of 16 octets or more.  `prove`, `verify`, the
commitment of a composed frame and `messageCommitmentVerdict` all hash it, so under a digest that
tells preimages apart a detached commitment verifies for a salt and a body exactly when it was made
for them under the algorithm of the verifying hasher, and so does the one in a frame, under the
algorithm as the library spells it. -/
theorem commitment_opens_only_as_made (hL : L.Lawful) (hsalt : L.ParsesSalts) :
    (∀ salt bodyDer, (∃ preimage, commitmentPreimage L salt bodyDer = .ok preimage) ↔
      salt = [] ∨ 16 ≤ salt.length) ∧
    (∀ s₁ s₂ b₁ b₂ preimage, s₁.length < 2 ^ 64 → s₂.length < 2 ^ 64 →
      commitmentPreimage L s₁ b₁ = .ok preimage → commitmentPreimage L s₂ b₂ = .ok preimage →
      s₁ = s₂ ∧ b₁ = b₂) ∧
    (∀ hasher bodyDer salt proven, Opening.prove L hasher bodyDer salt = .ok proven ↔
      MadeFor L hasher.digest hasher.algorithmOid salt bodyDer proven.commitment ∧
        proven.opening = .fromParts salt bodyDer) ∧
    (∀ (opening : Opening) hasher commitment, opening.verify L hasher commitment = .ok true ↔
      MadeFor L hasher.digest hasher.algorithmOid opening.salt opening.bodyDer commitment) ∧
    (∀ der fields salt hasher, decoded L der = .ok fields →
      (messageCommitmentVerdict L der salt hasher = .ok .verified ↔
        ∃ commitment, fields.messageIntegrity = some commitment ∧
          MadeFor L hasher.digest hasher.algorithmOid salt fields.bodyDer commitment)) ∧
    (∀ spec der maker salt, compose L spec = .ok der →
      spec.messageIntegrity = some ⟨maker, salt⟩ →
      ∃ bodyDer fields commitment, bodyDerOf L spec = .ok bodyDer ∧
        Commits L maker (salt.getD []) bodyDer der fields commitment) ∧
    ∀ maker hasher : Hasher, maker.digest = hasher.digest → hasher.Injective →
      ∀ salt salt' : Octets, salt.length < 2 ^ 64 → salt'.length < 2 ^ 64 →
      (∀ bodyDer bodyDer' proven, Opening.prove L maker bodyDer salt = .ok proven →
        ((Opening.fromParts salt' bodyDer').verify L hasher proven.commitment = .ok true ↔
          salt' = salt ∧ bodyDer' = bodyDer ∧ hasher.algorithmOid = maker.algorithmOid)) ∧
      ∀ bodyDer der fields commitment, Commits L maker salt bodyDer der fields commitment →
        (∀ bodyDer', (Opening.fromParts salt' bodyDer').verify L hasher commitment = .ok true ↔
          salt' = salt ∧ bodyDer' = bodyDer ∧
            hasher.algorithmOid = L.spelled maker.algorithmOid) ∧
        (fields.confidentiality = none → fields.compactness = none →
          (messageCommitmentVerdict L der salt' hasher = .ok .verified ↔
            salt' = salt ∧ hasher.algorithmOid = L.spelled maker.algorithmOid)) := by
  refine ⟨commitmentPreimage_ok_iff hsalt, ?_, ?_, ?_, ?_, ?_, ?_⟩
  · intro s₁ s₂ b₁ b₂ preimage hs₁ hs₂ h₁ h₂
    exact commitmentPreimage_injective hsalt hs₁ hs₂ h₁ h₂
  · intro hasher bodyDer salt proven
    exact Opening.prove_iff
  · intro opening hasher commitment
    exact Opening.verify_iff
  · intro der fields salt hasher hdecoded
    exact messageCommitmentVerdict_iff hdecoded
  · intro spec der maker salt h hspec
    exact commits_of_compose hL h hspec
  · intro maker hasher hdigest hinj salt salt' hlen hlen'
    refine ⟨?_, ?_⟩
    · intro bodyDer bodyDer' proven hproven
      obtain ⟨hmade, -⟩ := Opening.prove_iff.mp hproven
      rw [Opening.verify_iff]
      exact hmade.iff_eq hsalt hdigest hinj hlen hlen'
    · intro bodyDer der fields commitment h
      refine ⟨?_, ?_⟩
      · intro bodyDer'
        rw [Opening.verify_iff]
        exact h.made.iff_eq hsalt hdigest hinj hlen hlen'
      · intro hopen hflat
        have hplain := h.plaintext hopen hflat
        have hiff : MadeFor L hasher.digest hasher.algorithmOid salt' fields.bodyDer commitment ↔
            salt' = salt ∧ fields.bodyDer = bodyDer ∧
              hasher.algorithmOid = L.spelled maker.algorithmOid :=
          h.made.iff_eq hsalt hdigest hinj hlen hlen'
        rw [messageCommitmentVerdict_iff h.decoded]
        constructor
        · rintro ⟨commitment', hsome, hmade⟩
          rw [h.carried] at hsome
          cases hsome
          obtain ⟨hs, -, hoid⟩ := hiff.mp hmade
          exact ⟨hs, hoid⟩
        · rintro ⟨hs, hoid⟩
          exact ⟨commitment, h.carried, hiff.mpr ⟨hs, hplain, hoid⟩⟩

namespace Small

/-- A hasher whose digest is the preimage. -/
def identity (algorithmOid : String) : Hasher := ⟨algorithmOid, .ok⟩

theorem identity_injective (algorithmOid : String) : (identity algorithmOid).Injective := by
  intro x y digest hx hy
  exact (Except.ok.inj hx).trans (Except.ok.inj hy).symm

theorem parsesSalts (known : List Frame) : (library known).ParsesSalts where
  plain salt := by
    cases salt with
    | nil => simp [library, parts]
    | cons b salt =>
      simp only [library, parts, List.isEmpty_cons, Bool.false_eq_true, if_false, reduceCtorEq,
        iff_false]
      split <;> simp
  hides salt := by
    cases salt with
    | nil => simp [library, parts]
    | cons b salt =>
      simp only [library, parts, List.isEmpty_cons, Bool.false_eq_true, if_false]
      split
      · next hlong => simpa using hlong
      · next hshort => simpa using hshort

/-- A salt that hides. -/
def blinding : Octets := List.replicate 16 0xB5

/-- A body of one octet. -/
def committedBody : Octets := [0x30, 0x03, 0x04, 0x01, 0x2A]

/-- The frames that are made when the body is committed to under the salt. -/
def committedFrames : List Frame :=
  [frameOf none none none [0x30, 0x02, 0x04, 0x00] none,
    frameOf none none none committedBody none,
    frameOf none (some ⟨⟨sha3, none⟩, 0x01 :: (beBytes 16 ++ blinding ++ committedBody)⟩) none
      committedBody none]

/-- A specification with a commitment that hides. -/
def committed (hasherOid : String) : FrameSpec where
  id := some [0x01, 0x02]
  order := some 7
  message := some ⟨none, .ok committedBody⟩
  messageIntegrity := some ⟨identity hasherOid, some blinding⟩

/-- The commitment of a composed frame verifies for its salt and for no other. -/
theorem commitment_opens_for_its_salt : ∃ der,
    compose (library committedFrames) (committed "2.16.840.1.101.3.4.2.8") = .ok der ∧
    messageCommitmentVerdict (library committedFrames) der blinding
      (identity "2.16.840.1.101.3.4.2.8") = .ok .verified ∧
    messageCommitmentVerdict (library committedFrames) der []
      (identity "2.16.840.1.101.3.4.2.8") ≠ .ok .verified := by
  have hrun : (compose (library committedFrames)
      (committed "2.16.840.1.101.3.4.2.8")).bind (fun der =>
        (decoded (library committedFrames) der).map fun fields =>
          (fields.confidentiality.isSome, fields.compactness.isSome)) = .ok (false, false) := by
    decide +kernel
  obtain ⟨der, hder, hdecoded⟩ := bind_ok hrun
  obtain ⟨fields', hfields', hplain⟩ := map_ok hdecoded
  obtain ⟨-, -, -, -, -, hcompose, hopens⟩ :=
    commitment_opens_only_as_made (lawful committedFrames) (parsesSalts committedFrames)
  obtain ⟨bodyDer, fields, commitment, -, h⟩ := hcompose _ der _ _ hder rfl
  obtain rfl := Except.ok.inj (hfields'.symm.trans h.decoded)
  obtain ⟨hopen, hflat⟩ := Prod.mk.inj hplain
  have hverdict : ∀ salt' : Octets, salt'.length < 2 ^ 64 →
      (messageCommitmentVerdict (library committedFrames) der salt'
        (identity "2.16.840.1.101.3.4.2.8") = .ok .verified ↔ salt' = blinding ∧
          "2.16.840.1.101.3.4.2.8" =
            (library committedFrames).spelled "2.16.840.1.101.3.4.2.8") := by
    intro salt' hlen
    obtain ⟨-, hframe⟩ := hopens (identity "2.16.840.1.101.3.4.2.8")
      (identity "2.16.840.1.101.3.4.2.8") rfl (identity_injective _) blinding salt' (by decide) hlen
    exact (hframe bodyDer der fields' commitment h).2 (by simpa using hopen) (by simpa using hflat)
  refine ⟨der, hder, (hverdict blinding (by decide)).mpr ⟨rfl, by decide⟩, ?_⟩
  intro hverified
  exact absurd ((hverdict [] (by decide)).mp hverified).1 (by decide)

end Small

/-- A hasher that writes a zero too many does not open the commitment it made. -/
theorem commitment_under_respelled_oid : ∃ der,
    (Small.library Small.committedFrames).Lawful ∧
    (Small.library Small.committedFrames).ParsesSalts ∧
    (Small.identity "2.16.840.1.101.3.4.02.8").Injective ∧
    collectIssues (Small.library Small.committedFrames)
      (Small.committed "2.16.840.1.101.3.4.02.8") = [] ∧
    compose (Small.library Small.committedFrames)
      (Small.committed "2.16.840.1.101.3.4.02.8") = .ok der ∧
    messageCommitmentVerdict (Small.library Small.committedFrames) der Small.blinding
      (Small.identity "2.16.840.1.101.3.4.02.8") = .ok .algorithmMismatch := by
  have hverdict : (compose (Small.library Small.committedFrames)
      (Small.committed "2.16.840.1.101.3.4.02.8")).bind
      (messageCommitmentVerdict (Small.library Small.committedFrames) · Small.blinding
        (Small.identity "2.16.840.1.101.3.4.02.8")) = .ok .algorithmMismatch := by decide +kernel
  obtain ⟨der, hder, hverdict⟩ := bind_ok hverdict
  exact ⟨der, Small.lawful _, Small.parsesSalts _, Small.identity_injective _, by decide +kernel,
    hder, hverdict⟩

end Ws
end TightbeamExt
