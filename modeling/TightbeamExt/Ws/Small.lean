import TightbeamExt.Ws.Received

/-!
# A small library

The laws that are asked of the library have a model: elements of fewer than 256 octets, and frames
of an identifier, a small order stamp, compactness info of the profile, digests of the profile
and one envelope.  It has no signatures, and reads the frames of a given list.

## Main definitions

* `Small.codec` — elements of fewer than 256 octets.
* `Small.library` — the library over it.

## Main results

* `Small.toDer_injective` — two frames are not encoded alike.
* `Small.lawful` — **the laws hold.**
-/

namespace TightbeamExt
namespace Ws
namespace Small

open Asn (Octets)

/-! ### Elements -/

/-- The octet of a tag, as a number. -/
def codeOf : Tag → Option ℕ
  | .integer => some 0x02
  | .octetString => some 0x04
  | .sequence => some 0x30
  | .contextSpecific false n => if n < 31 then some (0x80 + n) else none
  | .contextSpecific true n => if n < 31 then some (0xA0 + n) else none
  | .other code =>
      if code < 0x80 ∧ code ≠ 0x02 ∧ code ≠ 0x04 ∧ code ≠ 0x30 then some code else none

/-- The tag of an octet. -/
def tagOf (code : ℕ) : Tag :=
  if code = 0x02 then .integer
  else if code = 0x04 then .octetString
  else if code = 0x30 then .sequence
  else if code < 0x80 then .other code
  else if code < 0xA0 then .contextSpecific false (code - 0x80)
  else .contextSpecific true (code - 0xA0)

theorem tagOf_codeOf {tag : Tag} {code : ℕ} (h : codeOf tag = some code) :
    code < 256 ∧ tagOf code = tag := by
  cases tag with
  | integer | octetString | sequence => cases h; exact ⟨by decide, rfl⟩
  | contextSpecific constructed n =>
    cases constructed with
    | false =>
      simp only [codeOf] at h
      split at h
      · cases h
        refine ⟨by omega, ?_⟩
        rw [tagOf, if_neg (by omega), if_neg (by omega), if_neg (by omega), if_neg (by omega),
          if_pos (by omega), Nat.add_sub_cancel_left]
      · cases h
    | true =>
      simp only [codeOf] at h
      split at h
      · cases h
        refine ⟨by omega, ?_⟩
        rw [tagOf, if_neg (by omega), if_neg (by omega), if_neg (by omega), if_neg (by omega),
          if_neg (by omega), Nat.add_sub_cancel_left]
      · cases h
  | other code =>
    simp only [codeOf] at h
    split at h
    · next hcode =>
      cases h
      refine ⟨by omega, ?_⟩
      rw [tagOf, if_neg hcode.2.1, if_neg hcode.2.2.1, if_neg hcode.2.2.2, if_pos hcode.1]
    · cases h

/-- A length, in one octet or in two. -/
def lengthOctets (n : ℕ) : Option Octets :=
  if n < 0x80 then some [UInt8.ofNat n]
  else if n < 0x100 then some [0x81, UInt8.ofNat n]
  else none

/-- The second octet of a length, which does not fit in one. -/
def readLong : Octets → Option (ℕ × Octets)
  | [] => none
  | n :: rest => if 0x80 ≤ n.toNat then some (n.toNat, rest) else none

/-- Read a length. -/
def readLength : Octets → Option (ℕ × Octets)
  | [] => none
  | n :: rest =>
      if n.toNat < 0x80 then some (n.toNat, rest)
      else if n = 0x81 then readLong rest
      else none

theorem readLength_lengthOctets {n : ℕ} {octets : Octets} (rest : Octets)
    (h : lengthOctets n = some octets) : readLength (octets ++ rest) = some (n, rest) := by
  unfold lengthOctets at h
  split at h
  · next hlt =>
    cases h
    show readLength (UInt8.ofNat n :: rest) = _
    rw [readLength, UInt8.toNat_ofNat_of_lt' (hlt.trans (by decide)), if_pos hlt]
  · next hge =>
    split at h
    · next hlt =>
      cases h
      show readLength (0x81 :: UInt8.ofNat n :: rest) = _
      rw [readLength, if_neg (by decide), if_pos rfl, readLong, UInt8.toNat_ofNat_of_lt' hlt,
        if_pos (by omega)]
    · cases h

theorem lengthOctets_readLength {s rest : Octets} {n : ℕ} (h : readLength s = some (n, rest)) :
    ∃ octets, lengthOctets n = some octets ∧ s = octets ++ rest := by
  cases s with
  | nil => cases h
  | cons b s =>
    rw [readLength] at h
    split at h
    · next hlt =>
      cases h
      exact ⟨[b], by rw [lengthOctets, if_pos hlt, UInt8.ofNat_toNat], rfl⟩
    · split at h
      · next hlong =>
        cases s with
        | nil => cases h
        | cons m s =>
          rw [readLong] at h
          split at h
          · next hge =>
            cases h
            refine ⟨[0x81, m], ?_, by rw [hlong]; rfl⟩
            have hlt := m.toNat_lt
            rw [lengthOctets, if_neg (by omega), if_pos (by omega), UInt8.ofNat_toNat]
          · cases h
      · cases h

theorem lengthOctets_pos {n : ℕ} {octets : Octets} (h : lengthOctets n = some octets) :
    0 < octets.length := by
  unfold lengthOctets at h
  split at h
  · cases h; exact Nat.zero_lt_one
  · split at h
    · cases h; exact Nat.zero_lt_two
    · cases h

/-- Write an element. -/
def write (a : Any) : Except TightBeamError Octets :=
  match codeOf a.tag, lengthOctets a.value.length with
  | some code, some octets => .ok (UInt8.ofNat code :: (octets ++ a.value))
  | _, _ => .error (.other 3)

/-- Read an element. -/
def read : Octets → Except TightBeamError (Any × Octets)
  | [] => .error (.other 4)
  | b :: rest =>
      match readLength rest with
      | none => .error (.other 5)
      | some (n, rest) =>
          if codeOf (tagOf b.toNat) = some b.toNat ∧ n ≤ rest.length then
            .ok (⟨tagOf b.toNat, rest.take n⟩, rest.drop n)
          else .error (.other 6)

theorem read_ok {s rest : Octets} {a : Any} (h : read s = .ok (a, rest)) :
    ∃ b octets n tail, s = b :: (octets ++ tail) ∧ lengthOctets n = some octets ∧
      codeOf (tagOf b.toNat) = some b.toNat ∧ n ≤ tail.length ∧
      a = ⟨tagOf b.toNat, tail.take n⟩ ∧ rest = tail.drop n := by
  unfold read at h
  split at h
  · cases h
  · next b s =>
    split at h
    · cases h
    · next n tail hlength =>
      split at h
      · next hvalid =>
        cases h
        obtain ⟨octets, hoctets, rfl⟩ := lengthOctets_readLength hlength
        exact ⟨b, octets, n, tail, rfl, hoctets, hvalid.1, hvalid.2, rfl, rfl⟩
      · cases h

/-- Elements with a length of one octet or two. -/
def codec : Tlv.Codec TightBeamError UInt8 Any where
  write := write
  read := read
  read_lt h := by
    obtain ⟨b, octets, n, tail, rfl, hoctets, -, -, -, rfl⟩ := read_ok h
    have hpos := lengthOctets_pos hoctets
    simp only [List.length_drop, List.length_cons, List.length_append]
    omega

theorem codec_lawful : codec.Lawful where
  read_write {a s} rest h := by
    change write a = .ok s at h
    unfold write at h
    split at h
    · next code octets hcode hoctets =>
      cases h
      obtain ⟨hlt, htag⟩ := tagOf_codeOf hcode
      show read (UInt8.ofNat code :: (octets ++ a.value ++ rest)) = _
      rw [read, List.append_assoc, readLength_lengthOctets _ hoctets]
      simp only [UInt8.toNat_ofNat_of_lt' hlt, htag, hcode]
      rw [if_pos ⟨trivial, by simp⟩]
      simp
    · cases h
  write_read {a s rest} h := by
    obtain ⟨b, octets, n, tail, rfl, hoctets, hb, hle, rfl, rfl⟩ := read_ok h
    have hlen : (tail.take n).length = n := List.length_take_of_le hle
    refine ⟨b :: (octets ++ tail.take n), ?_, by simp⟩
    show write _ = _
    rw [write]
    simp only [hlen, hb, hoctets, UInt8.ofNat_toNat]

/-! ### Frames -/

/-- An OID element. -/
def oidElement (octets : Octets) : Octets := 0x06 :: UInt8.ofNat octets.length :: octets

/-- `sha3-256`. -/
def sha3 : Oid := ⟨[2, 16, 840, 1, 101, 3, 4, 2, 8]⟩

/-- `zstd`. -/
def zstd : Oid := ⟨[1, 3, 6, 1, 4, 1, 64586, 2, 1]⟩

/-- `aes256-GCM`. -/
def aes : Oid := ⟨[2, 16, 840, 1, 101, 3, 4, 1, 46]⟩

/-- The identifiers it knows.  Zeros before an arc are read over. -/
def oids : List (String × Oid) :=
  [("2.16.840.1.101.3.4.2.8", sha3), ("1.3.6.1.4.1.64586.2.1", zstd),
    ("2.16.840.1.101.3.4.1.46", aes), ("1.2.840.113549.1.7.1", .data),
    ("2.16.840.1.101.3.4.02.8", sha3)]

/-- A sequence. -/
def sequenceOf (components : List Any) : Except TightBeamError Octets :=
  (codec.writeAll components).bind fun value => codec.write ⟨.sequence, value⟩

/-- Compactness info of the profile. -/
def profileCompactness : CompressedData := ⟨0, ⟨zstd, none⟩, .data, none⟩

/-- An envelope without recipients. -/
def profileEnvelope : AuthEnvelopedData := ⟨aes, []⟩

/-- The octets of the envelope: version, recipients, content info and tag. -/
def envelopeOctets : Octets :=
  [0x30, 0x31,
    0x02, 0x01, 0x00,
    0x31, 0x00,
    0x30, 0x18, 0x06, 0x09, 0x2A, 0x86, 0x48, 0x86, 0xF7, 0x0D, 0x01, 0x07, 0x01,
    0x30, 0x0B, 0x06, 0x09, 0x60, 0x86, 0x48, 0x01, 0x65, 0x03, 0x04, 0x01, 0x2E,
    0x04, 0x10, 0x00, 0x01, 0x02, 0x03, 0x04, 0x05, 0x06, 0x07, 0x08, 0x09, 0x0A, 0x0B, 0x0C,
    0x0D, 0x0E, 0x0F]

/-- The encoders of the parts of a frame. -/
def parts : Library where
  any := codec
  newAny tag value := .ok ⟨tag, value⟩
  parseOid text := oids.lookup text
  oidText oid := ((oids.find? fun entry => entry.2 = oid).map Prod.fst).getD ""
  errorText _ := "the frame is refused"
  versionField v := .ok ⟨.other 0x0A, [UInt8.ofNat v.ordinal]⟩
  idField id := .ok ⟨.octetString, id⟩
  orderField order :=
    if order < 0x80 then .ok ⟨.integer, [UInt8.ofNat order]⟩ else .error (.other 7)
  closing priority lifetime parent matrix :=
    match priority, lifetime, parent, matrix with
    | none, none, none, none => .ok []
    | _, _, _, _ => .error (.other 8)
  digestDer d :=
    if d.algorithm = ⟨sha3, none⟩ then
      sequenceOf [⟨.sequence, oidElement [0x60, 0x86, 0x48, 0x01, 0x65, 0x03, 0x04, 0x02, 0x08]⟩,
        ⟨.octetString, d.digest⟩]
    else .error (.other 9)
  compressedDer c :=
    if c = profileCompactness then
      sequenceOf [⟨.integer, [0]⟩,
        ⟨.sequence,
          oidElement [0x2B, 0x06, 0x01, 0x04, 0x01, 0x83, 0xF8, 0x4A, 0x02, 0x01]⟩,
        ⟨.sequence, oidElement [0x2A, 0x86, 0x48, 0x86, 0xF7, 0x0D, 0x01, 0x07, 0x01]⟩]
    else .error (.other 10)
  envelopeDer e := if e = profileEnvelope then .ok envelopeOctets else .error (.other 11)
  parseEnvelope der := if der = envelopeOctets then .ok profileEnvelope else .error (.other 11)
  signerDer _ := .error (.other 12)
  signerTag := 1
  fromDer _ := .error (.other 13)
  toDer _ := .error (.other 13)
  toTbs _ := .error (.other 13)
  builder v config message := .ok ⟨v, ⟨config.id, config.order, none, none, none, config.priority,
    config.lifetime, config.previousHash, config.matrix⟩, message, none, none⟩
  fromRowMajor n data := if data.length = n.toNat * n.toNat then some ⟨n, data⟩ else none
  parseSalt salt :=
    if salt.isEmpty then .ok .plain
    else if 16 ≤ salt.length then .ok .hiding
    else .error (.other 14)
  draft _ _ := .error (.other 12)
  complete _ _ := .error (.other 12)
  attachSignerInfo _ _ := .error (.other 12)
  numberText _ := "a number"

/-- The encoding of a frame. -/
def toDer (f : Frame) : Except TightBeamError Octets :=
  (parts.frameComponents f).bind parts.sequenceDer

/-- The library that reads the frames of a list. -/
def library (known : List Frame) : Library :=
  { parts with
    fromDer := fun der =>
      match known.find? fun f => toDer f = .ok der with
      | some f => .ok f
      | none => .error (.other 13)
    toDer := toDer
    toTbs := fun f => toDer { f with nonrepudiation := none } }

/-! ### Frames are told apart -/

theorem sequenceDer_injective {cs cs' : List Any} {der : Octets}
    (h : parts.sequenceDer cs = .ok der) (h' : parts.sequenceDer cs' = .ok der) : cs = cs' := by
  have hread := sequenceFromDer_of_sequenceDer (L := parts) codec_lawful h
  rw [sequenceFromDer_of_sequenceDer (L := parts) codec_lawful h'] at hread
  cases hread
  rfl

theorem sequenceField_injective {cs cs' : List Any} {a : Any}
    (h : parts.sequenceField cs = .ok a) (h' : parts.sequenceField cs' = .ok a) : cs = cs' := by
  obtain ⟨der, hwrite, hread, -⟩ := sequenceField_ok (L := parts) codec_lawful h
  obtain ⟨der', hwrite', hread', -⟩ := sequenceField_ok (L := parts) codec_lawful h'
  cases hwrite.symm.trans hwrite'
  cases hread.symm.trans hread'
  rfl

theorem digestDer_injective {d d' : DigestInfo} {der : Octets}
    (h : parts.digestDer d = .ok der) (h' : parts.digestDer d' = .ok der) : d = d' := by
  simp only [parts] at h h'
  split at h
  · next halg =>
    split at h'
    · next halg' =>
      have heq := sequenceDer_injective h h'
      obtain ⟨alg, digest⟩ := d
      obtain ⟨alg', digest'⟩ := d'
      cases halg
      cases halg'
      cases heq
      rfl
    · cases h'
  · cases h

theorem envelopeDer_injective {e e' : AuthEnvelopedData} {der : Octets}
    (h : parts.envelopeDer e = .ok der) (h' : parts.envelopeDer e' = .ok der) : e = e' := by
  simp only [parts] at h h'
  split at h
  · next he =>
    split at h'
    · next he' => rw [he, he']
    · cases h'
  · cases h

theorem compressedDer_injective {c c' : CompressedData} {der : Octets}
    (h : parts.compressedDer c = .ok der) (h' : parts.compressedDer c' = .ok der) : c = c' := by
  simp only [parts] at h h'
  split at h
  · next hc =>
    split at h'
    · next hc' => rw [hc, hc']
    · cases h'
  · cases h

/-- Compactness info is a SEQUENCE, and has one component. -/
theorem anyFromDer_compressedDer {c : CompressedData} {der : Octets} {a : Any}
    (hder : parts.compressedDer c = .ok der) (hany : parts.anyFromDer der = .ok a) :
    a.tag = .sequence ∧ parts.any.write a = .ok der := by
  obtain ⟨value, -, hwrite⟩ : ∃ value, codec.writeAll _ = .ok value ∧
      codec.write ⟨.sequence, value⟩ = .ok der := by
    simp only [parts] at hder
    split at hder
    · exact bind_ok hder
    · cases hder
  have hread := anyFromDer_of_write (L := parts) codec_lawful hwrite
  cases hread.symm.trans hany
  exact ⟨rfl, hwrite⟩

section Fields

variable {α : Type} {encode : α → Except TightBeamError Octets}
  {wrap : Octets → Except TightBeamError Any} {tag : Tag} {x y : Option α} {cs ds : List Any}

/-- A field that may be absent, under a tag. -/
theorem field_tag (htag : ∀ a der c, encode a = .ok der → wrap der = .ok c → c.tag = tag)
    (h : Library.optional (fun a => (encode a).bind wrap) x = .ok cs) :
    cs = [] ∨ ∃ c, cs = [c] ∧ c.tag = tag := by
  cases x with
  | none => cases h; exact .inl rfl
  | some a =>
    obtain ⟨c, hc, rfl⟩ := map_ok h
    obtain ⟨der, hder, hwrap⟩ := bind_ok hc
    exact .inr ⟨c, rfl, htag a der c hder hwrap⟩

/-- A field that may be absent is told by its components. -/
theorem field_injective
    (hinj : ∀ a b der der' c, encode a = .ok der → wrap der = .ok c → encode b = .ok der' →
      wrap der' = .ok c → a = b)
    (hx : Library.optional (fun a => (encode a).bind wrap) x = .ok cs)
    (hy : Library.optional (fun a => (encode a).bind wrap) y = .ok cs) : x = y := by
  cases x with
  | none =>
    cases y with
    | none => rfl
    | some b =>
      obtain ⟨c, -, hcs⟩ := map_ok hy
      cases hx
      cases hcs
  | some a =>
    obtain ⟨c, hc, rfl⟩ := map_ok hx
    obtain ⟨der, hder, hwrap⟩ := bind_ok hc
    cases y with
    | none => cases hy
    | some b =>
      obtain ⟨c', hc', hcs⟩ := map_ok hy
      obtain ⟨der', hder', hwrap'⟩ := bind_ok hc'
      cases hcs
      rw [hinj a b der der' c hder hwrap hder' hwrap']

end Fields

/-- Components under a tag are told from those that follow. -/
theorem append_tag_injective {tag : Tag} {cs cs' rest rest' : List Any}
    (hcs : cs = [] ∨ ∃ c, cs = [c] ∧ c.tag = tag) (hcs' : cs' = [] ∨ ∃ c, cs' = [c] ∧ c.tag = tag)
    (hrest : ∀ c ∈ rest, c.tag ≠ tag) (hrest' : ∀ c ∈ rest', c.tag ≠ tag)
    (h : cs ++ rest = cs' ++ rest') : cs = cs' ∧ rest = rest' := by
  rcases hcs with rfl | ⟨c, rfl, hc⟩
  · rcases hcs' with rfl | ⟨c', rfl, hc'⟩
    · exact ⟨rfl, h⟩
    · have hmem : c' ∈ rest := by
        rw [show rest = c' :: rest' from h]
        exact List.mem_cons_self ..
      exact absurd hc' (hrest c' hmem)
  · rcases hcs' with rfl | ⟨c', rfl, hc'⟩
    · have hmem : c ∈ rest' := by
        rw [← show c :: rest = rest' from h]
        exact List.mem_cons_self ..
      exact absurd hc (hrest' c hmem)
    · obtain ⟨rfl, rfl⟩ := List.cons.inj h
      exact ⟨rfl, rfl⟩

theorem tag_ne {tag tag' : Tag} {cs : List Any} (hcs : cs = [] ∨ ∃ c, cs = [c] ∧ c.tag = tag)
    (hne : tag ≠ tag') : ∀ c ∈ cs, c.tag ≠ tag' := by
  intro c hmem
  rcases hcs with rfl | ⟨c', rfl, rfl⟩
  · cases hmem
  · cases List.mem_singleton.mp hmem
    exact hne

theorem tagged_tag {α : Type} {encode : α → Except TightBeamError Octets} {number : ℕ} :
    ∀ a der c, encode a = .ok der → parts.tagged number der = .ok c →
      c.tag = .contextSpecific true number := by
  intro a der c _ hc
  cases hc
  rfl

theorem tagged_injective {α : Type} {encode : α → Except TightBeamError Octets} {number : ℕ}
    (hinj : ∀ {a b der}, encode a = .ok der → encode b = .ok der → a = b) :
    ∀ a b der der' c, encode a = .ok der → parts.tagged number der = .ok c → encode b = .ok der' →
      parts.tagged number der' = .ok c → a = b := by
  intro a b der der' c ha hc hb hc'
  cases hc
  cases hc'
  exact hinj ha hb

theorem compactness_injective : ∀ a b der der' c, parts.compressedDer a = .ok der →
    parts.anyFromDer der = .ok c → parts.compressedDer b = .ok der' →
    parts.anyFromDer der' = .ok c → a = b := by
  intro a b der der' c ha hc hb hc'
  have hwrite := (anyFromDer_compressedDer ha hc).2
  have hwrite' := (anyFromDer_compressedDer hb hc').2
  cases hwrite.symm.trans hwrite'
  exact compressedDer_injective ha hb

theorem closing_ok {priority : Option MessagePriority} {lifetime : Option ℕ}
    {parent : Option DigestInfo} {matrix : Option Matrix} {cs : List Any}
    (h : parts.closing priority lifetime parent matrix = .ok cs) :
    priority = none ∧ lifetime = none ∧ parent = none ∧ matrix = none ∧ cs = [] := by
  simp only [parts] at h
  split at h
  · cases h
    exact ⟨rfl, rfl, rfl, rfl, rfl⟩
  · cases h

theorem orderField_ok {order : ℕ} {a : Any} (h : parts.orderField order = .ok a) :
    order < 0x80 ∧ a = ⟨.integer, [UInt8.ofNat order]⟩ := by
  simp only [parts] at h
  split at h
  · next hlt => cases h; exact ⟨hlt, rfl⟩
  · cases h

/-- A field that cannot be encoded is absent. -/
theorem optional_error {α : Type} {e : TightBeamError} {wrap : Octets → Except TightBeamError Any}
    {x : Option α} {cs : List Any}
    (h : Library.optional (fun _ => (Except.error e).bind wrap) x = .ok cs) : x = none ∧ cs = [] := by
  cases x with
  | none => cases h; exact ⟨rfl, rfl⟩
  | some a => cases h

theorem metadata_injective {m m' : Metadata} {ms : List Any}
    (h : parts.metadataComponents m = .ok ms) (h' : parts.metadataComponents m' = .ok ms) :
    m = m' := by
  obtain ⟨id, order, compactness, integrity, confidentiality, closing, hparts, rfl⟩ :=
    metadataComponents_ok h
  obtain ⟨id', order', compactness', integrity', confidentiality', closing', hparts', hms⟩ :=
    metadataComponents_ok h'
  obtain ⟨hpriority, hlifetime, hparent, hmatrix, rfl⟩ := closing_ok hparts.closing
  obtain ⟨hpriority', hlifetime', hparent', hmatrix', rfl⟩ := closing_ok hparts'.closing
  obtain ⟨hlt, rfl⟩ := orderField_ok hparts.order
  obtain ⟨hlt', rfl⟩ := orderField_ok hparts'.order
  rw [List.cons.injEq, List.cons.injEq] at hms
  obtain ⟨rfl, hvalue, hfields⟩ := hms
  have hid : (⟨.octetString, m.id⟩ : Any) = ⟨.octetString, m'.id⟩ :=
    (Except.ok.inj hparts.id).trans (Except.ok.inj hparts'.id).symm
  have horder : m.order = m'.order := by
    have hoctet : UInt8.ofNat m.order = UInt8.ofNat m'.order := by simpa using hvalue
    have hnat := congrArg UInt8.toNat hoctet
    rwa [UInt8.toNat_ofNat_of_lt' (hlt.trans (by decide)),
      UInt8.toNat_ofNat_of_lt' (hlt'.trans (by decide))] at hnat
  simp only [List.append_nil] at hfields
  -- compactness info is a SEQUENCE, the commitment has tag 0, the envelope has tag 1
  have hcs := field_tag (fun a der c ha hc => (anyFromDer_compressedDer ha hc).1) hparts.compactness
  have hcs' :=
    field_tag (fun a der c ha hc => (anyFromDer_compressedDer ha hc).1) hparts'.compactness
  have his := field_tag tagged_tag hparts.integrity
  have his' := field_tag tagged_tag hparts'.integrity
  have hes := field_tag tagged_tag hparts.confidentiality
  have hes' := field_tag tagged_tag hparts'.confidentiality
  have hrest : ∀ {js ks : List Any}, (js = [] ∨ ∃ c, js = [c] ∧ c.tag = .contextSpecific true 0) →
      (ks = [] ∨ ∃ c, ks = [c] ∧ c.tag = .contextSpecific true 1) →
      ∀ c ∈ js ++ ks, c.tag ≠ .sequence := by
    intro js ks hjs hks c hmem
    rcases List.mem_append.mp hmem with hmem | hmem
    · exact tag_ne hjs (by decide) c hmem
    · exact tag_ne hks (by decide) c hmem
  obtain ⟨rfl, htagged⟩ := append_tag_injective hcs hcs' (hrest his hes) (hrest his' hes') hfields
  obtain ⟨rfl, rfl⟩ := append_tag_injective his his' (tag_ne hes (by decide))
    (tag_ne hes' (by decide)) htagged
  have hcompact := field_injective compactness_injective hparts.compactness hparts'.compactness
  have hintegrity := field_injective (tagged_injective digestDer_injective) hparts.integrity
    hparts'.integrity
  have hconf := field_injective (tagged_injective envelopeDer_injective) hparts.confidentiality
    hparts'.confidentiality
  obtain ⟨id, order, compactness, integrity, confidentiality, priority, lifetime, previousFrame,
    matrix⟩ := m
  obtain ⟨id', order', compactness', integrity', confidentiality', priority', lifetime',
    previousFrame', matrix'⟩ := m'
  simp only [Any.mk.injEq, true_and] at hid
  simp_all

/-- **Two frames are not encoded alike.** -/
theorem toDer_injective {f g : Frame} {der : Octets} (hf : toDer f = .ok der)
    (hg : toDer g = .ok der) : f = g := by
  obtain ⟨cs, hcs, hder⟩ := bind_ok hf
  obtain ⟨cs', hcs', hder'⟩ := bind_ok hg
  obtain rfl := sequenceDer_injective hder hder'
  obtain ⟨metadata, hmetadata, hcs⟩ := bind_ok hcs
  obtain ⟨integrity, hintegrity, hcs⟩ := bind_ok hcs
  obtain ⟨signer, hsigner, hcs⟩ := bind_ok hcs
  obtain ⟨metadata', hmetadata', hcs'⟩ := bind_ok hcs'
  obtain ⟨integrity', hintegrity', hcs'⟩ := bind_ok hcs'
  obtain ⟨signer', hsigner', hcs'⟩ := bind_ok hcs'
  obtain ⟨hnone, rfl⟩ := optional_error hsigner
  obtain ⟨hnone', rfl⟩ := optional_error hsigner'
  cases hcs
  have heq := Except.ok.inj hcs'
  simp only [List.append_nil, List.cons.injEq] at heq
  obtain ⟨hversion, rfl, hmessage, rfl⟩ := heq
  obtain ⟨ms, hms, hfield⟩ := bind_ok hmetadata
  obtain ⟨ms', hms', hfield'⟩ := bind_ok hmetadata'
  obtain rfl := sequenceField_injective hfield hfield'
  have hmeta := metadata_injective hms hms'
  have hwitness := field_injective (tagged_injective digestDer_injective) hintegrity hintegrity'
  have hvers : f.version = g.version := by
    revert hversion
    cases f.version <;> cases g.version <;> decide
  obtain ⟨fv, fm, fb, fi, fn⟩ := f
  obtain ⟨gv, gm, gb, gi, gn⟩ := g
  simp_all

theorem mem_oids {text : String} {oid : Oid} (h : oids.lookup text = some oid) :
    (text, oid) = ("2.16.840.1.101.3.4.2.8", sha3) ∨ (text, oid) = ("1.3.6.1.4.1.64586.2.1", zstd) ∨
      (text, oid) = ("2.16.840.1.101.3.4.1.46", aes) ∨
      (text, oid) = ("1.2.840.113549.1.7.1", .data) ∨
      (text, oid) = ("2.16.840.1.101.3.4.02.8", sha3) := by
  obtain ⟨l₁, l₂, hsplit, -⟩ := List.lookup_eq_some_iff.mp h
  have hmem : (text, oid) ∈ oids := hsplit ▸ List.mem_append_right _ (List.mem_cons_self ..)
  simpa [oids] using hmem

/-- **The laws hold.** -/
theorem lawful (known : List Frame) : (library known).Lawful where
  any := codec_lawful
  newAny h := by cases h; rfl
  parseOid {text oid} h := by
    rcases mem_oids h with heq | heq | heq | heq | heq <;> cases heq <;> rfl
  oidText {text oid} hplain h := by
    rcases mem_oids h with heq | heq | heq | heq | heq
    · cases heq; rfl
    · cases heq; rfl
    · cases heq; rfl
    · cases heq; rfl
    · -- a zero too many
      cases heq
      exact absurd hplain (by decide)
  versionField h c n htag := by cases h; cases htag
  idField h c n htag := by cases h; cases htag
  orderField h c n htag := by
    obtain ⟨-, rfl⟩ := orderField_ok h
    cases htag
  compressedDer hder hany := (anyFromDer_compressedDer hder hany).1
  closing h a hmem := by
    obtain ⟨-, -, -, -, rfl⟩ := closing_ok h
    cases hmem
  signerTag := Nat.zero_lt_one
  envelope {der e} h := by
    simp only [library, parts] at h
    split at h
    · next hder =>
      cases h
      rw [hder]
      rfl
    · cases h
  toDer {f der} := by
    constructor
    · intro h
      exact bind_ok h
    · rintro ⟨cs, hcs, hder⟩
      show (parts.frameComponents f).bind parts.sequenceDer = _
      have hcs' : parts.frameComponents f = .ok cs := hcs
      rw [hcs']
      exact hder
  canonical {der f} h := by
    simp only [library] at h
    split at h
    · next g hfind =>
      cases h
      show toDer f = .ok der
      simpa using List.find?_some hfind
    · cases h
  faithful {der f g} hf hg := by
    simp only [library] at hg
    split at hg
    · next g' hfind =>
      cases hg
      have hder : toDer g = .ok der := by simpa using List.find?_some hfind
      exact toDer_injective hder hf
    · cases hg
  builder h := by cases h; rfl
  fromRowMajor {n data m} h := by
    simp only [library, parts] at h
    split at h
    · cases h; rfl
    · cases h
  toTbs _ _ := rfl
  draft h := by cases h
  complete h := by cases h
  attachSignerInfo h := by cases h
  readable h := by cases h

/-! ### Capabilities -/

/-- A hasher that counts octets. -/
def counter (algorithmOid : String) : Hasher :=
  ⟨algorithmOid, fun octets => .ok [UInt8.ofNat octets.length]⟩

/-- A compressor that turns a body around. -/
def reverser : BodyCompressor :=
  ⟨fun bodyDer => .ok ⟨"1.3.6.1.4.1.64586.2.1", none, none, bodyDer.reverse⟩⟩

/-- Its inflator. -/
def unreverser : BodyInflator := ⟨fun compressed => .ok compressed.data.reverse⟩

/-- An encryptor that inverts bits, and says its algorithm is `algorithmOid`. -/
def inverter (algorithmOid : String) : BodyEncryptor :=
  ⟨fun bodyDer _ => .ok ⟨algorithmOid, envelopeOctets, bodyDer.map (~~~ ·)⟩⟩

/-- Its decryptor. -/
def uninverter : BodyDecryptor := ⟨fun sealed => .ok (sealed.ciphertext.map (~~~ ·))⟩

/-- A frame with the given layers. -/
def frameOf (compactness : Option CompressedData) (integrity : Option DigestInfo)
    (confidentiality : Option AuthEnvelopedData) (message : Octets) (witness : Option DigestInfo) : Frame :=
  ⟨.v2, ⟨[0x01, 0x02], 7, compactness, integrity, confidentiality, none, none, none, none⟩,
    message, witness, none⟩

/-- The frames that are made when a body of one octet is committed to, compressed, sealed and
witnessed. -/
def frames : List Frame :=
  let body : Octets := [0x30, 0x03, 0x04, 0x01, 0x2A]
  let commitment : DigestInfo := ⟨⟨sha3, none⟩, [6]⟩
  [frameOf none none none [0x30, 0x02, 0x04, 0x00] none,
    frameOf none none none body none,
    frameOf none (some commitment) none body none,
    frameOf (some profileCompactness) (some commitment) none body.reverse none,
    frameOf (some profileCompactness) (some commitment) (some profileEnvelope)
      (body.reverse.map (~~~ ·)) none,
    frameOf (some profileCompactness) (some commitment) (some profileEnvelope)
      (body.reverse.map (~~~ ·)) (some ⟨⟨sha3, none⟩, [119]⟩)]

end Small
end Ws
end TightbeamExt
