import TightbeamExt.Ws.Frame

/-!
# Splices are record updates

A splice works on components, with positions and tags.  On the encoding of a frame it amounts to
setting one field of the frame.

## Main definitions

* `WireFrame.Holds` — the components are those of a frame, but for the metadata, which is put
  back last.
* `witnessOf` — the octets a witness is over.

## Main results

* `fromDer_setMessageIntegrity`, `fromDer_setCompactness`, `fromDer_setConfidentiality`,
  `fromDer_attachWitness`, `fromDer_attachSignature` — **each operation sets its field and
  changes no other.**  A signature is checked against the digest it was made over.
* `witnessInput_eq` — the octets a witness is over depend on the version and the metadata only.
-/

namespace TightbeamExt
namespace Ws

open Asn (Octets)

variable {L : Library}

/-! ### Elements and sequences -/

theorem anyFromDer_of_write (hany : L.any.Lawful) {a : Any} {der : Octets} (h : L.any.write a = .ok der) :
    L.anyFromDer der = .ok a := by
  rw [Library.anyFromDer, hany.read_write_nil h]

theorem read_of_anyFromDer {a : Any} {der : Octets} (h : L.anyFromDer der = .ok a) :
    L.any.read der = .ok (a, []) := by
  unfold Library.anyFromDer at h
  split at h
  · cases h
  · next hread => cases h; exact hread
  · cases h

theorem write_of_anyFromDer (hany : L.any.Lawful) {a : Any} {der : Octets}
    (h : L.anyFromDer der = .ok a) : L.any.write a = .ok der :=
  hany.write_read_nil (read_of_anyFromDer h)

theorem anyFromDer_of_sequenceDer (hany : L.any.Lawful) {cs : List Any} {der : Octets}
    (h : L.sequenceDer cs = .ok der) :
    ∃ value, L.any.writeAll cs = .ok value ∧ L.anyFromDer der = .ok ⟨.sequence, value⟩ := by
  obtain ⟨value, hvalue, hwrite⟩ := bind_ok h
  exact ⟨value, hvalue, anyFromDer_of_write hany hwrite⟩

/-- A sequence is read back as its components. -/
theorem sequenceFromDer_of_sequenceDer (hany : L.any.Lawful) {cs : List Any} {der : Octets}
    (h : L.sequenceDer cs = .ok der) : L.sequenceFromDer der = .ok cs := by
  obtain ⟨value, hvalue, hread⟩ := anyFromDer_of_sequenceDer hany h
  rw [Library.sequenceFromDer, hread]
  exact hany.readAll_writeAll hvalue

/-- A sequence put into a frame as one component is read back. -/
theorem sequenceField_ok (hany : L.any.Lawful) {cs : List Any} {a : Any}
    (h : L.sequenceField cs = .ok a) :
    ∃ der, L.any.write a = .ok der ∧ L.sequenceFromDer der = .ok cs ∧ a.tag = .sequence := by
  obtain ⟨der, hder, hfield⟩ := bind_ok h
  obtain ⟨value, -, hread⟩ := anyFromDer_of_sequenceDer hany hder
  rw [hread] at hfield
  cases hfield
  exact ⟨der, write_of_anyFromDer hany hread, sequenceFromDer_of_sequenceDer hany hder, rfl⟩

/-! ### Tagged fields -/

/-- Past a context tag. -/
def Past (number : ℕ) (c : Any) : Prop := ∃ b k, c.tag = .contextSpecific b k ∧ number < k

theorem insertIdx_length_append {α : Type*} (front back : List α) (x : α) :
    (front ++ back).insertIdx front.length x = front ++ x :: back := by
  induction front with
  | nil => rfl
  | cons a front ih => simpa using ih

/-- The components before the first one at or past the number are skipped. -/
theorem findIdx_atOrPast {front back : List Any} {number : ℕ}
    (hfront : ∀ c ∈ front, atOrPast number c = false)
    (hback : ∀ c ∈ back.head?, atOrPast number c = true) :
    (front ++ back).findIdx (atOrPast number) = front.length := by
  induction front with
  | nil =>
    cases back with
    | nil => rfl
    | cons c back => simp [List.findIdx_cons, hback c rfl]
  | cons a front ih =>
    rw [List.cons_append, List.findIdx_cons, hfront a (List.mem_cons_self ..),
      ih fun c hc => hfront c (List.mem_cons_of_mem _ hc)]
    rfl

/-- `set_tagged` puts the field between what is before it and what is past it, in place of the
one that is there. -/
theorem setTagged_eq (front : List Any) {held back cs : List Any} {number : ℕ} {der : Octets}
    (hfront : ∀ c ∈ front, atOrPast number c = false)
    (hheld : held = [] ∨ ∃ value, held = [⟨.contextSpecific true number, value⟩])
    (hback : ∀ c ∈ back, Past number c)
    (h : setTagged L (front ++ (held ++ back)) number der = .ok cs) :
    ∃ field, L.tagged number der = .ok field ∧ cs = front ++ ([field] ++ back) := by
  obtain ⟨field, hfield, h⟩ := bind_ok h
  refine ⟨field, hfield, ?_⟩
  have hpast : ∀ c ∈ back, atOrPast number c = true ∧ c.tag ≠ .contextSpecific true number := by
    intro c hc
    obtain ⟨b, k, htag, hlt⟩ := hback c hc
    refine ⟨by simp [atOrPast, htag, hlt.le], fun heq => ?_⟩
    rw [htag] at heq
    cases heq
    exact lt_irrefl _ hlt
  rcases hheld with rfl | ⟨value, rfl⟩
  · rw [List.nil_append, findIdx_atOrPast hfront
      fun c hc => (hpast c (List.mem_of_mem_head? hc)).1] at h
    dsimp only at h
    rw [insertIdx_length_append, List.getElem?_append_right le_rfl, Nat.sub_self] at h
    cases back with
    | nil => cases h; rfl
    | cons c back =>
      simp only [List.getElem?_cons_zero] at h
      rw [if_neg (hpast c (List.mem_cons_self ..)).2] at h
      cases h
      rfl
  · rw [findIdx_atOrPast hfront fun c hc => by cases hc; simp [atOrPast]] at h
    dsimp only at h
    rw [List.getElem?_append_right le_rfl, Nat.sub_self] at h
    simp only [List.singleton_append, List.getElem?_cons_zero, if_true] at h
    cases h
    rw [List.set_append_right _ _ le_rfl, Nat.sub_self]
    rfl

/-! ### Components of a frame -/

/-- A field that may be absent has at most one component. -/
theorem optional_ok {α : Type} {field : α → Except TightBeamError Any} {x : Option α}
    {cs : List Any} (h : Library.optional field x = .ok cs) :
    cs = [] ∨ ∃ a c, x = some a ∧ field a = .ok c ∧ cs = [c] := by
  cases x with
  | none => cases h; exact .inl rfl
  | some a =>
    obtain ⟨c, hc, rfl⟩ := map_ok h
    exact .inr ⟨a, c, rfl, hc, rfl⟩

theorem optional_some {α : Type} {field : α → Except TightBeamError Any} {a : α} {c : Any}
    (h : field a = .ok c) : Library.optional field (some a) = .ok [c] := by
  rw [Library.optional, h]
  rfl

/-- A field that is there, from its encoding. -/
theorem optional_encoded {α : Type} (encode : α → Except TightBeamError Octets)
    {wrap : Octets → Except TightBeamError Any} {a : α} {der : Octets} {field : Any}
    (ha : encode a = .ok der) (hwrap : wrap der = .ok field) :
    Library.optional (fun a => (encode a).bind wrap) (some a) = .ok [field] := by
  apply optional_some
  rw [ha]
  exact hwrap

/-- A tagged field that may be absent. -/
theorem tagged_optional (hL : L.Lawful) {α : Type} {encode : α → Except TightBeamError Octets}
    {number : ℕ} {x : Option α} {cs : List Any}
    (h : Library.optional (fun a => (encode a).bind (L.tagged number)) x = .ok cs) :
    cs = [] ∨ ∃ value, cs = [⟨.contextSpecific true number, value⟩] := by
  rcases optional_ok h with rfl | ⟨a, c, -, hc, rfl⟩
  · exact .inl rfl
  · obtain ⟨der, -, htag⟩ := bind_ok hc
    exact .inr ⟨der, by rw [hL.newAny htag]⟩

/-- The components of metadata, by field. -/
structure MetadataParts (L : Library) (m : Metadata) (id order : Any)
    (compactness integrity confidentiality closing : List Any) : Prop where
  /-- `id`. -/
  id : L.idField m.id = .ok id
  /-- `order`. -/
  order : L.orderField m.order = .ok order
  /-- `compactness`. -/
  compactness : Library.optional (fun c => (L.compressedDer c).bind L.anyFromDer) m.compactness =
    .ok compactness
  /-- The commitment. -/
  integrity : Library.optional (fun d => (L.digestDer d).bind (L.tagged 0)) m.integrity =
    .ok integrity
  /-- The envelope. -/
  confidentiality : Library.optional (fun e => (L.envelopeDer e).bind (L.tagged 1))
    m.confidentiality = .ok confidentiality
  /-- What is past the envelope. -/
  closing : L.closing m.priority m.lifetime m.previousFrame m.matrix = .ok closing

theorem metadataComponents_ok {m : Metadata} {ms : List Any}
    (h : L.metadataComponents m = .ok ms) :
    ∃ id order compactness integrity confidentiality closing,
      MetadataParts L m id order compactness integrity confidentiality closing ∧
      ms = id :: order :: (compactness ++ (integrity ++ (confidentiality ++ closing))) := by
  obtain ⟨id, hid, h⟩ := bind_ok h
  obtain ⟨order, horder, h⟩ := bind_ok h
  obtain ⟨compactness, hcompactness, h⟩ := bind_ok h
  obtain ⟨integrity, hintegrity, h⟩ := bind_ok h
  obtain ⟨confidentiality, hconfidentiality, h⟩ := bind_ok h
  obtain ⟨closing, hclosing, h⟩ := bind_ok h
  cases h
  exact ⟨id, order, compactness, integrity, confidentiality, closing,
    ⟨hid, horder, hcompactness, hintegrity, hconfidentiality, hclosing⟩, rfl⟩

theorem MetadataParts.components {m : Metadata} {id order : Any}
    {compactness integrity confidentiality closing : List Any}
    (h : MetadataParts L m id order compactness integrity confidentiality closing) :
    L.metadataComponents m =
      .ok (id :: order :: (compactness ++ (integrity ++ (confidentiality ++ closing)))) := by
  rw [Library.metadataComponents, h.id, h.order, h.compactness, h.integrity, h.confidentiality,
    h.closing]
  rfl

/-- The components are those of a frame.  The metadata among them may be out of date: it is put
back when the frame is reassembled. -/
structure WireFrame.Holds (L : Library) (wire : WireFrame) (f : Frame) : Prop where
  /-- The components of the frame. -/
  frame : ∃ version stale integrity signer, L.versionField f.version = .ok version ∧
    stale.tag = .sequence ∧
    Library.optional (fun d => (L.digestDer d).bind (L.tagged 0)) f.integrity = .ok integrity ∧
    Library.optional (fun s => (L.signerDer s).bind (L.tagged L.signerTag)) f.nonrepudiation =
      .ok signer ∧
    wire.frame = version :: stale :: ⟨.octetString, f.message⟩ :: (integrity ++ signer)
  /-- The components of the metadata. -/
  metadata : L.metadataComponents f.metadata = .ok wire.metadata

/-- `WireFrame::parse` takes apart what it accepts. -/
theorem parse_of_fromDer (hL : L.Lawful) {der : Octets} {f : Frame} (h : L.fromDer der = .ok f) :
    ∃ wire, WireFrame.parse L der = .ok wire ∧ wire.Holds L f ∧
      ∃ metadata, wire.frame[1]? = some metadata ∧ L.sequenceField wire.metadata = .ok metadata := by
  obtain ⟨cs, hcs, hder⟩ := hL.toDer.mp (hL.canonical h)
  obtain ⟨version, hversion, hcs⟩ := bind_ok hcs
  obtain ⟨metadata, hmetadata, hcs⟩ := bind_ok hcs
  obtain ⟨integrity, hintegrity, hcs⟩ := bind_ok hcs
  obtain ⟨signer, hsigner, hcs⟩ := bind_ok hcs
  cases hcs
  obtain ⟨ms, hms, hfield⟩ := bind_ok hmetadata
  obtain ⟨metadataDer, hwrite, hread, htag⟩ := sequenceField_ok hL.any hfield
  refine ⟨⟨_, ms⟩, ?_, ⟨⟨version, metadata, integrity, signer, hversion, htag, hintegrity, hsigner,
    rfl⟩, hms⟩, metadata, rfl, hfield⟩
  unfold WireFrame.parse
  rw [h, sequenceFromDer_of_sequenceDer hL.any hder]
  show (L.any.write metadata).bind _ = _
  rw [hwrite]
  show (L.sequenceFromDer metadataDer).bind _ = _
  rw [hread]
  rfl

theorem holds_of_parse (hL : L.Lawful) {der : Octets} {f : Frame} {wire : WireFrame}
    (h : L.fromDer der = .ok f) (hparse : WireFrame.parse L der = .ok wire) : wire.Holds L f := by
  obtain ⟨wire', hparse', hholds, -⟩ := parse_of_fromDer hL h
  cases hparse.symm.trans hparse'
  exact hholds

/-- `finish` reassembles the frame. -/
theorem fromDer_finish (hL : L.Lawful) {wire : WireFrame} {f : Frame} {der : Octets}
    (hholds : wire.Holds L f) (h : wire.finish L = .ok der) : L.fromDer der = .ok f := by
  obtain ⟨⟨version, stale, integrity, signer, hversion, -, hintegrity, hsigner, hframe⟩,
    hmetadata⟩ := hholds
  obtain ⟨metadata, hfield, h⟩ := bind_ok h
  rw [hframe, if_pos (by simp)] at h
  obtain ⟨spliced, hspliced, h⟩ := bind_ok h
  obtain ⟨g, hg, h⟩ := bind_ok h
  cases h
  have hcomponents : L.frameComponents f =
      .ok (version :: metadata :: ⟨.octetString, f.message⟩ :: (integrity ++ signer)) := by
    rw [Library.frameComponents, hversion, hmetadata, hintegrity, hsigner]
    show (L.sequenceField wire.metadata).bind _ = _
    rw [hfield]
    rfl
  have hder : L.toDer f = .ok der := hL.toDer.mpr ⟨_, hcomponents, hspliced⟩
  rw [hg, hL.faithful hder hg]

/-! ### Splices -/

/-- A tagged field is past any lower tag. -/
theorem past_of_tagged (hL : L.Lawful) {α : Type} {encode : α → Except TightBeamError Octets}
    {number lower : ℕ} {x : Option α} {cs : List Any}
    (h : Library.optional (fun a => (encode a).bind (L.tagged number)) x = .ok cs)
    (hlt : lower < number) : ∀ c ∈ cs, Past lower c := by
  intro c hc
  rcases tagged_optional hL h with rfl | ⟨value, rfl⟩
  · cases hc
  · cases List.mem_singleton.mp hc
    exact ⟨true, number, rfl, hlt⟩

/-- `set_message` sets the body. -/
theorem holds_setMessage (hL : L.Lawful) {wire wire' : WireFrame} {f : Frame} {message : Octets}
    (hholds : wire.Holds L f) (h : wire.setMessage L message = .ok wire') :
    wire'.Holds L { f with message } := by
  obtain ⟨⟨version, stale, integrity, signer, hversion, hstale, hintegrity, hsigner, hframe⟩,
    hmetadata⟩ := hholds
  obtain ⟨der, hwrite, h⟩ := bind_ok h
  rw [anyFromDer_of_write hL.any hwrite] at h
  obtain ⟨a, ha, h⟩ := bind_ok h
  cases ha
  rw [hframe, if_pos (by simp)] at h
  cases h
  exact ⟨⟨version, stale, integrity, signer, hversion, hstale, hintegrity, hsigner, rfl⟩, hmetadata⟩

theorem atOrPast_of_ne {number : ℕ} {c : Any} (h : ∀ b n, c.tag ≠ .contextSpecific b n) :
    atOrPast number c = false := by
  unfold atOrPast
  split
  · next b held htag => exact absurd htag (h b held)
  · rfl

theorem atOrPast_of_sequence {number : ℕ} {c : Any} (h : c.tag = .sequence) :
    atOrPast number c = false :=
  atOrPast_of_ne fun b n heq => by rw [h] at heq; cases heq

/-- Compactness info has no context tag. -/
theorem sequence_of_compactness (hL : L.Lawful) {x : Option CompressedData} {cs : List Any}
    (h : Library.optional (fun c => (L.compressedDer c).bind L.anyFromDer) x = .ok cs) :
    cs = [] ∨ ∃ c, cs = [c] ∧ c.tag = .sequence := by
  rcases optional_ok h with rfl | ⟨a, c, -, hc, rfl⟩
  · exact .inl rfl
  · obtain ⟨der, hder, hany⟩ := bind_ok hc
    exact .inr ⟨c, rfl, hL.compressedDer hder hany⟩

/-- The components before the context fields of metadata. -/
theorem MetadataParts.plain (hL : L.Lawful) {m : Metadata} {id order : Any}
    {compactness integrity confidentiality closing : List Any} (number : ℕ)
    (h : MetadataParts L m id order compactness integrity confidentiality closing) :
    ∀ c ∈ id :: order :: compactness, atOrPast number c = false := by
  intro c hc
  rcases List.mem_cons.mp hc with rfl | hc
  · exact atOrPast_of_ne (hL.idField h.id)
  rcases List.mem_cons.mp hc with rfl | hc
  · exact atOrPast_of_ne (hL.orderField h.order)
  rcases sequence_of_compactness hL h.compactness with rfl | ⟨a, rfl, htag⟩
  · cases hc
  · cases List.mem_singleton.mp hc
    exact atOrPast_of_sequence htag

/-- The `[0]` field of metadata is the commitment. -/
theorem metadata_setTagged_integrity (hL : L.Lawful) {m : Metadata} {ms cs : List Any}
    {d : DigestInfo} {der : Octets} (hms : L.metadataComponents m = .ok ms)
    (hd : L.digestDer d = .ok der) (h : setTagged L ms 0 der = .ok cs) :
    L.metadataComponents { m with integrity := some d } = .ok cs := by
  obtain ⟨id, order, compactness, integrity, confidentiality, closing, hparts, rfl⟩ :=
    metadataComponents_ok hms
  have hpast : ∀ c ∈ confidentiality ++ closing, Past 0 c := by
    intro c hc
    rcases List.mem_append.mp hc with hc | hc
    · exact past_of_tagged hL hparts.confidentiality Nat.zero_lt_one c hc
    · obtain ⟨b, n, htag, hn⟩ := hL.closing hparts.closing c hc
      exact ⟨b, n, htag, Nat.zero_lt_of_lt hn⟩
  obtain ⟨field, hfield, rfl⟩ := setTagged_eq (id :: order :: compactness)
    (hparts.plain hL 0) (tagged_optional hL hparts.integrity) hpast h
  have hnew := optional_encoded L.digestDer hd hfield
  exact MetadataParts.components { hparts with integrity := hnew }

/-- The `[1]` field of metadata is the envelope. -/
theorem metadata_setTagged_confidentiality (hL : L.Lawful) {m : Metadata} {ms cs : List Any}
    {e : AuthEnvelopedData} {der : Octets} (hms : L.metadataComponents m = .ok ms)
    (he : L.envelopeDer e = .ok der) (h : setTagged L ms 1 der = .ok cs) :
    L.metadataComponents { m with confidentiality := some e } = .ok cs := by
  obtain ⟨id, order, compactness, integrity, confidentiality, closing, hparts, rfl⟩ :=
    metadataComponents_ok hms
  have hbefore : ∀ c ∈ id :: order :: (compactness ++ integrity), atOrPast 1 c = false := by
    intro c hc
    rw [← List.cons_append, ← List.cons_append] at hc
    rcases List.mem_append.mp hc with hc | hc
    · exact hparts.plain hL 1 c hc
    · rcases tagged_optional hL hparts.integrity with rfl | ⟨value, rfl⟩
      · cases hc
      · cases List.mem_singleton.mp hc
        rfl
  have hpast : ∀ c ∈ closing, Past 1 c := hL.closing hparts.closing
  rw [← List.append_assoc compactness] at h
  obtain ⟨field, hfield, rfl⟩ :=
    setTagged_eq (id :: order :: (compactness ++ integrity)) hbefore
      (tagged_optional hL hparts.confidentiality) hpast h
  have hnew := optional_encoded L.envelopeDer he hfield
  rw [MetadataParts.components (m := { m with confidentiality := some e })
    { hparts with confidentiality := hnew }]
  simp

/-- The `[0]` field of a frame is the witness. -/
theorem holds_setTagged_integrity (hL : L.Lawful) {wire : WireFrame} {f : Frame} {cs : List Any}
    {d : DigestInfo} {der : Octets} (hholds : wire.Holds L f) (hd : L.digestDer d = .ok der)
    (h : setTagged L wire.frame 0 der = .ok cs) :
    WireFrame.Holds L { wire with frame := cs } { f with integrity := some d } := by
  obtain ⟨⟨version, stale, integrity, signer, hversion, hstale, hintegrity, hsigner, hframe⟩,
    hmetadata⟩ := hholds
  have hplain : ∀ c ∈ [version, stale, ⟨.octetString, f.message⟩], atOrPast 0 c = false := by
    intro c hc
    rcases List.mem_cons.mp hc with rfl | hc
    · exact atOrPast_of_ne (hL.versionField hversion)
    rcases List.mem_cons.mp hc with rfl | hc
    · exact atOrPast_of_sequence hstale
    · cases List.mem_singleton.mp hc
      rfl
  have hpast : ∀ c ∈ signer, Past 0 c := past_of_tagged hL hsigner hL.signerTag
  rw [hframe] at h
  obtain ⟨field, hfield, rfl⟩ :=
    setTagged_eq [version, stale, ⟨.octetString, f.message⟩] hplain
      (tagged_optional hL hintegrity) hpast h
  have hnew := optional_encoded L.digestDer hd hfield
  exact ⟨⟨version, stale, [field], signer, hversion, hstale, hnew, hsigner, rfl⟩, hmetadata⟩

/-- Compactness info goes after the order, in place of the one that is there. -/
theorem holds_setCompactness (hL : L.Lawful) {wire wire' : WireFrame} {f : Frame}
    {c : CompressedData} (hholds : wire.Holds L f) (h : wire.setCompactness L c = .ok wire') :
    wire'.Holds L { f with metadata := { f.metadata with compactness := some c } } := by
  obtain ⟨hframe, hmetadata⟩ := hholds
  obtain ⟨id, order, compactness, integrity, confidentiality, closing, hparts, hms⟩ :=
    metadataComponents_ok hmetadata
  obtain ⟨der, hder, h⟩ := bind_ok h
  obtain ⟨field, hfield, h⟩ := bind_ok h
  have hnew := optional_encoded L.compressedDer hder hfield
  have hcomponents := MetadataParts.components
    (m := { f.metadata with compactness := some c }) { hparts with compactness := hnew }
  suffices hwire : wire' = { wire with
      metadata := id :: order :: ([field] ++ (integrity ++ (confidentiality ++ closing))) } by
    subst hwire
    exact ⟨hframe, hcomponents⟩
  rw [hms] at h
  rcases sequence_of_compactness hL hparts.compactness with rfl | ⟨held, rfl, htag⟩
  · -- the next component, if there is one, has a context tag
    have hnext : ∀ a ∈ integrity ++ (confidentiality ++ closing), a.tag ≠ .sequence := by
      intro a ha htag
      rcases List.mem_append.mp ha with ha | ha
      · rcases tagged_optional hL hparts.integrity with rfl | ⟨value, rfl⟩
        · cases ha
        · cases List.mem_singleton.mp ha
          cases htag
      rcases List.mem_append.mp ha with ha | ha
      · obtain ⟨b, n, hcontext, -⟩ := past_of_tagged hL hparts.confidentiality Nat.zero_lt_one a ha
        cases htag.symm.trans hcontext
      · obtain ⟨b, n, hcontext, -⟩ := hL.closing hparts.closing a ha
        cases htag.symm.trans hcontext
    simp only [List.nil_append, List.getElem?_cons_succ] at h
    cases hrest : integrity ++ (confidentiality ++ closing) with
    | nil =>
      rw [hrest] at h
      cases h
      rfl
    | cons a rest =>
      rw [hrest] at h
      simp only [List.getElem?_cons_zero] at h
      rw [if_neg (hnext a (hrest ▸ List.mem_cons_self ..))] at h
      cases h
      rfl
  · simp only [List.getElem?_cons_succ, List.singleton_append, List.getElem?_cons_zero, htag,
      if_true] at h
    cases h
    rfl

/-! ### Operations on encodings -/

/-- **The structural frame** has the configured fields and nothing else. -/
theorem fromDer_build (hL : L.Lawful) {config : FrameConfig} {der : Octets}
    (h : config.build L = .ok der) :
    L.fromDer der = .ok ⟨config.effectiveVersion, ⟨config.id, config.order, none, none, none,
      config.priority, config.lifetime, config.previousHash, config.matrix⟩, config.message, none,
      none⟩ := by
  obtain ⟨placeholder, -, h⟩ := bind_ok h
  obtain ⟨frame, hframe, h⟩ := bind_ok h
  obtain ⟨frameDer, hder, h⟩ := bind_ok h
  obtain ⟨wire, hparse, h⟩ := bind_ok h
  obtain ⟨wire', hmessage, hfinish⟩ := bind_ok h
  obtain ⟨g, hg, -⟩ := bind_ok hparse
  obtain rfl := hL.faithful hder hg
  obtain rfl := hL.builder hframe
  exact fromDer_finish hL (holds_setMessage hL (holds_of_parse hL hg hparse) hmessage) hfinish

/-- **A commitment** is set and changes nothing else. -/
theorem fromDer_setMessageIntegrity (hL : L.Lawful) {der der' digest : Octets} {f : Frame}
    {oid : Oid} (hf : L.fromDer der = .ok f) (h : setMessageIntegrity L der oid digest = .ok der') :
    L.fromDer der' = .ok { f with
      metadata := { f.metadata with integrity := some ⟨algorithm oid, digest⟩ } } := by
  obtain ⟨wire, hparse, h⟩ := bind_ok h
  obtain ⟨commitment, hcommitment, h⟩ := bind_ok h
  obtain ⟨metadata, hmetadata, h⟩ := bind_ok h
  have hholds := holds_of_parse hL hf hparse
  have hspliced : WireFrame.Holds L { wire with metadata } { f with
      metadata := { f.metadata with integrity := some ⟨algorithm oid, digest⟩ } } :=
    ⟨hholds.frame, metadata_setTagged_integrity hL hholds.metadata hcommitment hmetadata⟩
  exact fromDer_finish hL hspliced h

/-- **An envelope** is set with the ciphertext as the body, and changes nothing else. -/
theorem fromDer_setConfidentiality (hL : L.Lawful) {der der' envelopeDer ciphertext : Octets}
    {f : Frame} (hf : L.fromDer der = .ok f)
    (h : setConfidentiality L der envelopeDer ciphertext = .ok der') :
    ∃ envelope, L.parseEnvelope envelopeDer = .ok envelope ∧
      L.fromDer der' = .ok { f with
        metadata := { f.metadata with confidentiality := some envelope }, message := ciphertext } := by
  obtain ⟨envelope, henvelope, h⟩ := bind_ok h
  obtain ⟨wire, hparse, h⟩ := bind_ok h
  obtain ⟨encoded, hencoded, h⟩ := bind_ok h
  obtain ⟨metadata, hmetadata, h⟩ := bind_ok h
  obtain ⟨wire', hmessage, h⟩ := bind_ok h
  have hholds := holds_of_parse hL hf hparse
  have hset := metadata_setTagged_confidentiality hL hholds.metadata hencoded hmetadata
  have hspliced : WireFrame.Holds L { wire with metadata }
      { f with metadata := { f.metadata with confidentiality := some envelope } } :=
    ⟨hholds.frame, hset⟩
  exact ⟨envelope, henvelope, fromDer_finish hL (holds_setMessage hL hspliced hmessage) h⟩

/-- **Compactness info** is set with the compressed octets as the body, and changes nothing
else. -/
theorem fromDer_setCompactness (hL : L.Lawful) {der der' compressed : Octets} {f : Frame}
    {contentOid : Option Oid} {algorithmOid : Oid} {parametersDer : Option Octets}
    (hf : L.fromDer der = .ok f)
    (h : setCompactness L der contentOid algorithmOid parametersDer compressed = .ok der') :
    ∃ parameters, transpose L.any.write parameters = .ok parametersDer ∧
      L.fromDer der' = .ok { f with
        metadata := { f.metadata with
          compactness := some ⟨0, ⟨algorithmOid, parameters⟩, contentOid.getD .data, none⟩ },
        message := compressed } := by
  obtain ⟨parameters, hparameters, h⟩ := bind_ok h
  obtain ⟨wire, hparse, h⟩ := bind_ok h
  obtain ⟨wire₁, hcompactness, h⟩ := bind_ok h
  obtain ⟨wire₂, hmessage, h⟩ := bind_ok h
  have hholds := holds_setCompactness hL (holds_of_parse hL hf hparse) hcompactness
  refine ⟨parameters, ?_, fromDer_finish hL (holds_setMessage hL hholds hmessage) h⟩
  cases parametersDer with
  | none => cases hparameters; rfl
  | some der =>
    obtain ⟨a, ha, rfl⟩ := map_ok hparameters
    rw [transpose, write_of_anyFromDer hL.any ha]
    rfl

/-- **A witness** is set and changes nothing else. -/
theorem fromDer_attachWitness (hL : L.Lawful) {der der' digest : Octets} {f : Frame} {oid : Oid}
    (hf : L.fromDer der = .ok f) (h : attachWitness L der oid digest = .ok der') :
    L.fromDer der' = .ok { f with integrity := some ⟨algorithm oid, digest⟩ } := by
  obtain ⟨wire, hparse, h⟩ := bind_ok h
  obtain ⟨witness, hwitness, h⟩ := bind_ok h
  obtain ⟨frame, hframe, h⟩ := bind_ok h
  exact fromDer_finish hL
    (holds_setTagged_integrity hL (holds_of_parse hL hf hparse) hwitness hframe) h

/-- The octets a witness is over: the version and the metadata. -/
def witnessOf (L : Library) (version : Version) (m : Metadata) : Except TightBeamError Octets := do
  let version ← L.versionField version
  let metadata ← (L.metadataComponents m).bind L.sequenceField
  L.sequenceDer [version, metadata]

/-- **The octets a witness is over** depend on the version and the metadata only. -/
theorem witnessInput_eq (hL : L.Lawful) {der : Octets} {f : Frame} (hf : L.fromDer der = .ok f) :
    witnessInput L der = witnessOf L f.version f.metadata := by
  obtain ⟨wire, hparse, ⟨⟨version, stale, integrity, signer, hversion, -, -, -, hframe⟩, hms⟩,
    metadata, -, hfield⟩ := parse_of_fromDer hL hf
  rw [witnessInput, hparse, witnessOf, hversion, hms]
  show WireFrame.witnessInput L wire = _
  rw [WireFrame.witnessInput, hframe]
  show (L.sequenceField wire.metadata).bind _ = (L.sequenceField wire.metadata).bind _
  rfl

/-- **A signature** is attached under the signer it names, and changes nothing else.  It is
checked against the digest it was made over. -/
theorem fromDer_attachSignature (hL : L.Lawful) {der der' signature keyId : Octets} {f : Frame}
    (hf : L.fromDer der = .ok f) (h : attachSignature L der signature keyId = .ok der') :
    ∃ info, L.fromDer der' = .ok { f with nonrepudiation := some info } ∧
      info.signature = signature ∧
      L.oidText info.signatureAlgorithm = "2.16.840.1.101.3.4.3.10" ∧
      L.oidText info.digestAlg = "2.16.840.1.101.3.4.2.8" ∧
      signaturePrehash L der' = signingPrehash L der keyId := by
  obtain ⟨frame, hframe, h⟩ := bind_ok h
  cases hf.symm.trans hframe
  obtain ⟨draft, hdraft, h⟩ := bind_ok h
  obtain ⟨info, hinfo, h⟩ := bind_ok h
  obtain ⟨signed, hattach, hder⟩ := bind_ok h
  obtain ⟨tbs, htbs, hdraft'⟩ := bind_ok hdraft
  obtain ⟨g, hg⟩ := hL.readable hattach hder
  obtain rfl := hL.faithful hder hg
  obtain rfl := hL.attachSignerInfo hattach
  obtain ⟨hsid, hsignature, hsigAlg, hdigestAlg⟩ := hL.complete hinfo
  rw [hL.draft hdraft'] at hsid
  refine ⟨info, hg, hsignature, hsigAlg, hdigestAlg, ?_⟩
  rw [signaturePrehash, signingPrehash, hg, hf]
  show (signatureDraft L { f with nonrepudiation := some info } info.sid).bind _ =
    (signatureDraft L f (.subjectKeyIdentifier keyId)).bind _
  rw [hsid, signatureDraft, hL.toTbs]
  rfl

end Ws
end TightbeamExt
