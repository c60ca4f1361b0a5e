import TightbeamExt.Ws.Received

/-!
# The builder

The builder collects the specification of a frame, one call at a time, and checks it before a
frame is composed.

## Main definitions

* `FrameSpec`, `collectIssues`, `effectiveVersion` — the specification and its checks.
* `BuilderCall`, `runCalls` — the calls.

## Main results

* `sameLayers_runCalls` — metadata changes neither the message nor the layers.
* `layers_runCalls` — no call takes a signature or a seal off.
-/

namespace TightbeamExt
namespace Ws

open Asn (Octets JsNumber)

/-! ### Specifications -/

/-- `MessageSlot`: the body, encoded when the frame is assembled. -/
structure MessageSlot where
  /-- The content type. -/
  contentOid : Option String
  /-- Produce the body. -/
  encodeBody : Except Fault Octets

/-- `MessageIntegritySpec`. -/
structure MessageIntegritySpec where
  /-- The commitment hasher. -/
  hasher : Hasher
  /-- The salt. -/
  salt : Option Octets

/-- `FrameSpec`. -/
structure FrameSpec where
  /-- The pinned version. -/
  version : Option Version := none
  /-- The asserted version. -/
  assertedVersion : Option Version := none
  /-- The message identifier. -/
  id : Option Octets := none
  /-- The order stamp. -/
  order : Option ℤ := none
  /-- The body. -/
  message : Option MessageSlot := none
  /-- The content type of the body. -/
  contentOid : Option String := none
  /-- The priority. -/
  priority : Option MessagePriority := none
  /-- Time to live. -/
  lifetime : Option ℤ := none
  /-- The parent frame. -/
  previousHash : Option CarriedDigest := none
  /-- The control matrix. -/
  matrix : Option FrameMatrix := none
  /-- The commitment. -/
  messageIntegrity : Option MessageIntegritySpec := none
  /-- The witness hasher. -/
  frameIntegrity : Option Hasher := none
  /-- The compressor. -/
  compressor : Option BodyCompressor := none
  /-- The encryptor. -/
  encryptor : Option BodyEncryptor := none
  /-- The signatory. -/
  signer : Option Signatory := none

/-- `requiredVersion`: the lowest version that admits the fields. -/
def requiredVersion (spec : FrameSpec) : Version :=
  if spec.matrix.isSome then .v3
  else if spec.messageIntegrity.isSome ∨ spec.frameIntegrity.isSome ∨ spec.priority.isSome ∨
      spec.lifetime.isSome ∨ spec.previousHash.isSome then .v2
  else if spec.signer.isSome ∨ spec.encryptor.isSome then .v1
  else .v0

/-- `effectiveVersion`: the pinned version, or the floor. -/
def effectiveVersion (spec : FrameSpec) : Version := spec.version.getD (requiredVersion spec)

/-- `OID_PATTERN`: digits, a dot, digits, and so on. -/
def isDottedOid (text : String) : Bool :=
  let parts := text.toList.splitOn '.'
  2 ≤ parts.length && parts.all fun part => !part.isEmpty && part.all Char.isDigit

/-- The greatest 64-bit integer. -/
def u64Max : ℤ := 2 ^ 64 - 1

/-- `validateU64`. -/
def validateU64 (value : ℤ) (path : String) : List ValidationIssue :=
  if value < 0 ∨ u64Max < value then
    [⟨path, s!"Field {path} must be in 0..=2^64-1, got {value}"⟩]
  else []

/-- An integer from one to 255, as the dimension of a matrix is. -/
def JsNumber.dimension : JsNumber → Option ℕ
  | .finite q => if q.den = 1 ∧ 1 ≤ q.num ∧ q.num ≤ 255 then some q.num.toNat else none
  | .notFinite => none

variable (L : Library)

/-- `validateMatrix`. -/
def validateMatrix (matrix : FrameMatrix) : List ValidationIssue :=
  match JsNumber.dimension matrix.n with
  | none => [⟨"matrix.n", "Field matrix.n must be an integer in 1..=255, got " ++
      L.numberText matrix.n⟩]
  | some n =>
      let expected := n * n
      let length := matrix.data.length
      if length ≠ expected then
        [⟨"matrix.data",
          s!"Field matrix.data must be exactly n*n ({expected}) octets, got {length}"⟩]
      else []

/-- `validatePreviousHash`. -/
def validatePreviousHash (previousHash : CarriedDigest) : List ValidationIssue :=
  (if isDottedOid previousHash.algorithmOid then [] else
    [⟨"previousHash.algorithmOid", "Field previousHash.algorithmOid must be a dotted OID, got " ++
      previousHash.algorithmOid⟩]) ++
  (if previousHash.digest.isEmpty then
    [⟨"previousHash.digest", "Field previousHash.digest must be non-empty"⟩] else [])

/-- `validateVersionFloor`. -/
def validateVersionFloor (version : Version) (spec : FrameSpec) : List ValidationIssue :=
  let pinned := version.ordinal
  let floor := (requiredVersion spec).ordinal
  if pinned < floor then
    [⟨"version",
      s!"Field version V{pinned} is below the floor V{floor} required by the requested fields"⟩]
  else []

/-- `validateVersionAssertion`. -/
def validateVersionAssertion (asserted : Version) (spec : FrameSpec) : List ValidationIssue :=
  let expected := asserted.ordinal
  let effective := (effectiveVersion spec).ordinal
  if asserted ≠ effectiveVersion spec then
    [⟨"assertedVersion",
      s!"Version assertion failed: asserted V{expected}, but the frame builds at V{effective}"⟩]
  else []

/-- The issues of a field that may be absent. -/
def issuesOf {α : Type} (check : α → List ValidationIssue) : Option α → List ValidationIssue
  | none => []
  | some a => check a

/-- `collectIssues`. -/
def collectIssues (spec : FrameSpec) : List ValidationIssue :=
  (if spec.message.isNone then [⟨"message", "Missing required field: message"⟩] else []) ++
  issuesOf (validateU64 · "order") spec.order ++
  issuesOf (validateU64 · "lifetime") spec.lifetime ++
  issuesOf (fun oid => if isDottedOid oid then [] else
    [⟨"contentOid", "Field contentOid must be a dotted OID, got " ++ oid⟩]) spec.contentOid ++
  issuesOf (validateMatrix L) spec.matrix ++
  issuesOf validatePreviousHash spec.previousHash ++
  issuesOf (validateVersionFloor · spec) spec.version ++
  issuesOf (validateVersionAssertion · spec) spec.assertedVersion

/-! ### The builder -/

/-- `Uint8Array | string`. -/
inductive IdInput
  /-- Octets. -/
  | octets (octets : Octets)
  /-- A string, as UTF-16 units. -/
  | text (units : List UInt16)

/-- `bigint | number`. -/
inductive IntInput
  /-- A bigint. -/
  | bigint (n : ℤ)
  /-- A number. -/
  | number (x : JsNumber)

/-- `toBytes`. -/
def toBytes : IdInput → Octets
  | .octets octets => octets
  | .text units => Text.TextEncoder.encode units

/-- `toBigInt`: a number that is no integer is refused. -/
def toBigInt : IntInput → Except Fault ℤ
  | .bigint n => .ok n
  | .number x =>
      match x with
      | .finite q => if q.den = 1 then .ok q.num else .error (refused x)
      | .notFinite => .error (refused x)
where
  /-- The `RangeError` of `BigInt`. -/
  refused (x : JsNumber) : Fault :=
    .error ("The number " ++ L.numberText x ++
      " cannot be converted to a BigInt because it is not an integer")

/-- `slotOf`. -/
def slotOf {T : Type} (codec : MessageCodec T) (message : T) : MessageSlot :=
  ⟨codec.contentOid, codec.encode message⟩

/-- The calls that add metadata. -/
inductive MetadataCall
  | withVersion (version : Version)
  | assertVersion (version : Version)
  | withId (id : IdInput)
  | withOrder (order : IntInput)
  | withContentOid (oid : String)
  | withPriority (priority : MessagePriority)
  | withLifetime (seconds : IntInput)
  | withPreviousHash (parent : CarriedDigest)
  | withMatrix (n : JsNumber) (data : Octets)
  | withMessageHasher (hasher : Hasher) (salt : Option Octets)
  | withWitnessHasher (hasher : Hasher)

/-- The calls of the builder. -/
inductive BuilderCall
  /-- One that adds metadata. -/
  | metadata (call : MetadataCall)
  | withMessage (slot : MessageSlot)
  | withCompressor (compressor : BodyCompressor)
  | withEncryptor (encryptor : BodyEncryptor)
  | withSigner (signatory : Signatory)

/-- The specification after a call that adds metadata. -/
def MetadataCall.run (spec : FrameSpec) : MetadataCall → Except Fault FrameSpec
  | .withVersion version => .ok { spec with version := some version }
  | .assertVersion version => .ok { spec with assertedVersion := some version }
  | .withId id => .ok { spec with id := some (toBytes id) }
  | .withOrder order => (toBigInt L order).map fun n => { spec with order := some n }
  | .withContentOid oid => .ok { spec with contentOid := some oid }
  | .withPriority priority => .ok { spec with priority := some priority }
  | .withLifetime seconds => (toBigInt L seconds).map fun n => { spec with lifetime := some n }
  | .withPreviousHash parent => .ok { spec with previousHash := some parent }
  | .withMatrix n data => .ok { spec with matrix := some ⟨n, data⟩ }
  | .withMessageHasher hasher salt =>
      .ok { spec with messageIntegrity := some ⟨hasher, salt⟩ }
  | .withWitnessHasher hasher => .ok { spec with frameIntegrity := some hasher }

/-- The specification after a call. -/
def BuilderCall.run (spec : FrameSpec) : BuilderCall → Except Fault FrameSpec
  | .metadata call => call.run L spec
  | .withMessage slot => .ok { spec with message := some slot }
  | .withCompressor compressor => .ok { spec with compressor := some compressor }
  | .withEncryptor encryptor => .ok { spec with encryptor := some encryptor }
  | .withSigner signatory => .ok { spec with signer := some signatory }

/-- The specification after a chain of calls. -/
def runCalls (calls : List BuilderCall) (spec : FrameSpec) : Except Fault FrameSpec :=
  calls.foldlM (BuilderCall.run L) spec

variable {L}

/-! ### Chains of calls -/

theorem runCalls_cons {call : BuilderCall} {calls : List BuilderCall} {spec spec' : FrameSpec}
    (h : runCalls L (call :: calls) spec = .ok spec') :
    ∃ next, call.run L spec = .ok next ∧ runCalls L calls next = .ok spec' := by
  rw [runCalls, List.foldlM_cons] at h
  exact bind_ok h

/-- What every call of a chain keeps, the chain keeps. -/
theorem runCalls_invariant {P : FrameSpec → Prop} {calls : List BuilderCall}
    (hstep : ∀ call ∈ calls, ∀ spec spec', P spec → call.run L spec = .ok spec' → P spec')
    {spec spec' : FrameSpec} (h : runCalls L calls spec = .ok spec') (hspec : P spec) :
    P spec' := by
  induction calls generalizing spec with
  | nil => cases h; exact hspec
  | cons call calls ih =>
    obtain ⟨next, hnext, hrest⟩ := runCalls_cons h
    have hP := hstep call List.mem_cons_self spec next hspec hnext
    exact ih (fun c hc => hstep c (List.mem_cons_of_mem _ hc)) hrest hP

/-- Two specifications with the same message and the same layers. -/
structure SameLayers (spec spec' : FrameSpec) : Prop where
  message : spec'.message = spec.message
  compressor : spec'.compressor = spec.compressor
  encryptor : spec'.encryptor = spec.encryptor
  signer : spec'.signer = spec.signer

theorem sameLayers_run {call : MetadataCall} {spec spec' : FrameSpec}
    (h : call.run L spec = .ok spec') : SameLayers spec spec' := by
  cases call with
  | withOrder order | withLifetime order =>
    obtain ⟨n, -, rfl⟩ := map_ok h
    exact ⟨rfl, rfl, rfl, rfl⟩
  | withVersion | assertVersion | withId | withContentOid | withPriority | withPreviousHash
  | withMatrix | withMessageHasher | withWitnessHasher => cases h; exact ⟨rfl, rfl, rfl, rfl⟩

/-- Metadata changes neither the message nor the layers. -/
theorem sameLayers_runCalls {calls : List MetadataCall} {spec spec' : FrameSpec}
    (h : runCalls L (calls.map .metadata) spec = .ok spec') : SameLayers spec spec' := by
  apply runCalls_invariant (P := SameLayers spec) _ h ⟨rfl, rfl, rfl, rfl⟩
  intro call hmem s s' hs hrun
  obtain ⟨c, -, rfl⟩ := List.mem_map.mp hmem
  have hcall : c.run L s = .ok s' := hrun
  have hsame := sameLayers_run hcall
  exact ⟨hsame.message.trans hs.message, hsame.compressor.trans hs.compressor,
    hsame.encryptor.trans hs.encryptor, hsame.signer.trans hs.signer⟩

/-- No call takes a layer off. -/
theorem layers_run {call : BuilderCall} {spec spec' : FrameSpec}
    (h : call.run L spec = .ok spec') :
    (spec.signer.isSome = true → spec'.signer.isSome = true) ∧
      (spec.encryptor.isSome = true → spec'.encryptor.isSome = true) := by
  cases call with
  | metadata call =>
    have hsame := sameLayers_run h
    rw [hsame.signer, hsame.encryptor]
    exact ⟨id, id⟩
  | withMessage | withCompressor => cases h; exact ⟨id, id⟩
  | withEncryptor => cases h; exact ⟨id, fun _ => rfl⟩
  | withSigner => cases h; exact ⟨fun _ => rfl, id⟩

theorem layers_runCalls {calls : List BuilderCall} {spec spec' : FrameSpec}
    (h : runCalls L calls spec = .ok spec') :
    (spec.signer.isSome = true → spec'.signer.isSome = true) ∧
      (spec.encryptor.isSome = true → spec'.encryptor.isSome = true) := by
  apply runCalls_invariant (P := fun s => (spec.signer.isSome = true → s.signer.isSome = true) ∧
    (spec.encryptor.isSome = true → s.encryptor.isSome = true)) _ h ⟨id, id⟩
  intro call _ s s' hs hrun
  have hkeep := layers_run hrun
  exact ⟨fun hsome => hkeep.1 (hs.1 hsome), fun hsome => hkeep.2 (hs.2 hsome)⟩

end Ws
end TightbeamExt
