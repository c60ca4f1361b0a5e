import TightbeamExt.Ws.Small

/-!
# Splices are local

A frame is a SEQUENCE of `version`, `metadata`, `message` and fields with a context tag;
its metadata one of `id`, `order`, an optional `compactness` and fields with a context tag.
The fields stand in the order of their tags.  A splice finds its place by position, by the
universal tag or by the first context tag at or past a number, and here it is shown to touch
nothing else.

## Main definitions

* `Ascending` — the context fields stand in strictly ascending tag order.
* `WireFrame.Laid` — the components are laid out as those of a frame.
* `Library.Layout` — what is relied on: elements are re-encoded to the octets they were read
  from, and what is accepted as a frame is laid out as one.
* `Replaced` — one component is put in or replaced, and the others stay as they are.
* `Opened` — octets, taken apart.
* `Splice`, `Splice.Touches` — the operations, and all that each one does to the components.

## Main results

* `setTagged_replaces`, `setCompactness_replaces` — the splices of one field.
* `Library.Lawful.layout` — a library that encodes frames field by field has the layout.
* `splices_are_local` — **every operation leaves every other component as it was**.
-/

namespace TightbeamExt
namespace Ws

open Asn (Octets)

variable {L : Library}

/-! ### Context fields in order -/

/-- The number of a context tag. -/
def contextNumber (c : Any) : Option ℕ :=
  match c.tag with
  | .contextSpecific _ number => some number
  | _ => none

/-- The context fields stand in strictly ascending tag order. -/
def Ascending (cs : List Any) : Prop := (cs.filterMap contextNumber).Pairwise (· < ·)

instance (cs : List Any) : Decidable (Ascending cs) :=
  inferInstanceAs (Decidable (List.Pairwise _ _))

/-- The fields that close a SEQUENCE: each has a context tag, the tags ascend, and those a
splice writes are EXPLICIT. -/
structure Fields (fields : List Any) : Prop where
  /-- Each has a context tag. -/
  tagged : ∀ c ∈ fields, ∃ number, contextNumber c = some number
  /-- The tags ascend. -/
  ascending : Ascending fields
  /-- Those a splice writes are EXPLICIT. -/
  explicit : ∀ c ∈ fields, ∀ constructed number, c.tag = .contextSpecific constructed number →
    number ≤ 1 → constructed = true

theorem tag_of_contextNumber {c : Any} {number : ℕ} (h : contextNumber c = some number) :
    ∃ constructed, c.tag = .contextSpecific constructed number := by
  unfold contextNumber at h
  split at h
  · next constructed held htag =>
    cases h
    exact ⟨constructed, htag⟩
  · cases h

theorem contextNumber_of_tag {c : Any} {constructed : Bool} {number : ℕ}
    (h : c.tag = .contextSpecific constructed number) : contextNumber c = some number := by
  simp [contextNumber, h]

theorem contextNumber_of_sequence {c : Any} (h : c.tag = .sequence) : contextNumber c = none := by
  simp [contextNumber, h]

theorem contextNumber_of_octetString {c : Any} (h : c.tag = .octetString) :
    contextNumber c = none := by
  simp [contextNumber, h]

theorem contextNumber_of_ne {c : Any} (h : ∀ b n, c.tag ≠ .contextSpecific b n) :
    contextNumber c = none := by
  cases hc : contextNumber c with
  | none => rfl
  | some number =>
    obtain ⟨constructed, htag⟩ := tag_of_contextNumber hc
    exact absurd htag (h constructed number)

theorem atOrPast_of_none {number : ℕ} {c : Any} (h : contextNumber c = none) :
    atOrPast number c = false := by
  refine atOrPast_of_ne fun b n htag => ?_
  rw [contextNumber_of_tag htag] at h
  cases h

theorem atOrPast_of_lt {number held : ℕ} {c : Any} (h : contextNumber c = some held)
    (hlt : held < number) : atOrPast number c = false := by
  obtain ⟨constructed, htag⟩ := tag_of_contextNumber h
  simp [atOrPast, htag, hlt]

/-- Components without a context tag do not count. -/
theorem ascending_append {plain fields : List Any} (h : ∀ c ∈ plain, contextNumber c = none) :
    Ascending (plain ++ fields) ↔ Ascending fields := by
  have hnil : plain.filterMap contextNumber = [] := List.filterMap_eq_nil_iff.mpr h
  rw [Ascending, List.filterMap_append, hnil, List.nil_append, Ascending]

/-- In ascending fields the first number is below the others. -/
theorem Fields.lt_of_cons {c : Any} {fields : List Any} {number : ℕ} (h : Fields (c :: fields))
    (hc : contextNumber c = some number) : ∀ d ∈ fields, Past number d := by
  intro d hd
  obtain ⟨held, hheld⟩ := h.tagged d (List.mem_cons_of_mem _ hd)
  obtain ⟨constructed, htag⟩ := tag_of_contextNumber hheld
  have hasc := h.ascending
  rw [Ascending, List.filterMap_cons_some hc, List.pairwise_cons] at hasc
  exact ⟨constructed, held, htag, hasc.1 held (List.mem_filterMap.mpr ⟨d, hd, hheld⟩)⟩

theorem Fields.of_cons {c : Any} {fields : List Any} (h : Fields (c :: fields)) : Fields fields where
  tagged d hd := h.tagged d (List.mem_cons_of_mem _ hd)
  ascending := by
    obtain ⟨number, hc⟩ := h.tagged c (List.mem_cons_self ..)
    have hasc := h.ascending
    rw [Ascending, List.filterMap_cons_some hc, List.pairwise_cons] at hasc
    exact hasc.2
  explicit d hd := h.explicit d (List.mem_cons_of_mem _ hd)

/-- Fields in order fall into those below a number, the one that holds it, and those past it. -/
theorem Fields.split {number : ℕ} (hnumber : number ≤ 1) : ∀ {fields : List Any}, Fields fields →
    ∃ below held past, fields = below ++ (held ++ past) ∧
      (∀ c ∈ below, ∃ n < number, contextNumber c = some n) ∧
      (held = [] ∨ ∃ value, held = [⟨.contextSpecific true number, value⟩]) ∧
      ∀ c ∈ past, Past number c := by
  intro fields
  induction fields with
  | nil => intro _; exact ⟨[], [], [], rfl, by simp, .inl rfl, by simp⟩
  | cons c fields ih =>
    intro h
    obtain ⟨k, hk⟩ := h.tagged c (List.mem_cons_self ..)
    obtain ⟨constructed, htag⟩ := tag_of_contextNumber hk
    have hlater := h.lt_of_cons hk
    rcases Nat.lt_trichotomy k number with hlt | rfl | hgt
    · obtain ⟨below, held, past, rfl, hbelow, hheld, hpast⟩ := ih h.of_cons
      refine ⟨c :: below, held, past, rfl, ?_, hheld, hpast⟩
      intro d hd
      rcases List.mem_cons.mp hd with rfl | hd
      · exact ⟨k, hlt, hk⟩
      · exact hbelow d hd
    · have hexplicit := h.explicit c (List.mem_cons_self ..) constructed k htag hnumber
      subst hexplicit
      obtain ⟨tag, value⟩ := c
      cases htag
      exact ⟨[], [_], fields, rfl, by simp, .inr ⟨value, rfl⟩, hlater⟩
    · refine ⟨[], [], c :: fields, rfl, by simp, .inl rfl, ?_⟩
      intro d hd
      rcases List.mem_cons.mp hd with rfl | hd
      · exact ⟨constructed, k, htag, hgt⟩
      · obtain ⟨b, n, hd, hlt⟩ := hlater d hd
        exact ⟨b, n, hd, hgt.trans hlt⟩

/-- Fields below a number, a field that holds it, and fields past it are in order. -/
theorem Fields.join {below past : List Any} {number : ℕ} {field : Any}
    (hbelow : Fields below) (hlt : ∀ c ∈ below, ∃ n < number, contextNumber c = some n)
    (hfield : field.tag = .contextSpecific true number) (hpast : Fields past)
    (hgt : ∀ c ∈ past, Past number c) : Fields (below ++ field :: past) := by
  have hnumber := contextNumber_of_tag hfield
  refine ⟨?_, ?_, ?_⟩
  · intro c hc
    rcases List.mem_append.mp hc with hc | hc
    · exact hbelow.tagged c hc
    rcases List.mem_cons.mp hc with rfl | hc
    · exact ⟨number, hnumber⟩
    · exact hpast.tagged c hc
  · have habove : ∀ n ∈ past.filterMap contextNumber, number < n := by
      intro n hn
      obtain ⟨c, hc, hcn⟩ := List.mem_filterMap.mp hn
      obtain ⟨b, k, htag, hlt⟩ := hgt c hc
      cases hcn.symm.trans (contextNumber_of_tag htag)
      exact hlt
    have hunder : ∀ n ∈ below.filterMap contextNumber, n < number := by
      intro n hn
      obtain ⟨c, hc, hcn⟩ := List.mem_filterMap.mp hn
      obtain ⟨k, hk, hck⟩ := hlt c hc
      cases hcn.symm.trans hck
      exact hk
    rw [Ascending, List.filterMap_append, List.filterMap_cons_some hnumber, List.pairwise_append,
      List.pairwise_cons]
    refine ⟨hbelow.ascending, ⟨habove, hpast.ascending⟩, ?_⟩
    intro a ha b hb
    rcases List.mem_cons.mp hb with rfl | hb
    · exact hunder a ha
    · exact (hunder a ha).trans (habove b hb)
  · intro c hc constructed n htag hn
    rcases List.mem_append.mp hc with hc | hc
    · exact hbelow.explicit c hc constructed n htag hn
    rcases List.mem_cons.mp hc with rfl | hc
    · cases hfield.symm.trans htag
      rfl
    · exact hpast.explicit c hc constructed n htag hn

theorem Fields.nil : Fields [] := ⟨by simp, List.Pairwise.nil, by simp⟩

/-- A field that may be absent goes before the fields past it. -/
theorem Fields.optional {held fields : List Any} {number : ℕ}
    (hheld : held = [] ∨ ∃ value, held = [⟨.contextSpecific true number, value⟩])
    (hfields : Fields fields) (hpast : ∀ c ∈ fields, Past number c) : Fields (held ++ fields) := by
  rcases hheld with rfl | ⟨value, rfl⟩
  · exact hfields
  · exact Fields.join Fields.nil (by simp) rfl hfields hpast

theorem Fields.of_append {front back : List Any} (h : Fields (front ++ back)) :
    Fields front ∧ Fields back := by
  have hasc := h.ascending
  rw [Ascending, List.filterMap_append, List.pairwise_append] at hasc
  exact ⟨⟨fun c hc => h.tagged c (List.mem_append_left _ hc), hasc.1,
      fun c hc => h.explicit c (List.mem_append_left _ hc)⟩,
    ⟨fun c hc => h.tagged c (List.mem_append_right _ hc), hasc.2.1,
      fun c hc => h.explicit c (List.mem_append_right _ hc)⟩⟩

/-! ### The layout of frames -/

/-- The components are laid out as those of a frame and of its metadata. -/
structure WireFrame.Laid (wire : WireFrame) : Prop where
  /-- `version`, `metadata`, `message`, and the context fields. -/
  frame : ∃ version metadata message fields,
    wire.frame = version :: metadata :: message :: fields ∧ contextNumber version = none ∧
    metadata.tag = .sequence ∧ message.tag = .octetString ∧ Fields fields
  /-- `id`, `order`, `compactness`, and the context fields. -/
  metadata : ∃ id order compactness fields,
    wire.metadata = id :: order :: (compactness ++ fields) ∧ contextNumber id = none ∧
    contextNumber order = none ∧ (compactness = [] ∨ ∃ c, compactness = [c] ∧ c.tag = .sequence) ∧
    Fields fields

/-- Before the context fields of a frame nothing has a context tag. -/
theorem plain_frame {version metadata message : Any} (hversion : contextNumber version = none)
    (hmetadata : metadata.tag = .sequence) (hmessage : message.tag = .octetString) :
    ∀ c ∈ [version, metadata, message], contextNumber c = none := by
  simp [hversion, contextNumber_of_sequence hmetadata, contextNumber_of_octetString hmessage]

/-- Nor before those of metadata. -/
theorem plain_metadata {id order : Any} {compactness : List Any} (hid : contextNumber id = none)
    (horder : contextNumber order = none)
    (hcompactness : compactness = [] ∨ ∃ c, compactness = [c] ∧ c.tag = .sequence) :
    ∀ c ∈ id :: order :: compactness, contextNumber c = none := by
  rcases hcompactness with rfl | ⟨c, rfl, htag⟩
  · simp [hid, horder]
  · simp [hid, horder, contextNumber_of_sequence htag]

namespace WireFrame.Laid

variable {wire : WireFrame}

theorem length_frame (h : wire.Laid) : 2 < wire.frame.length := by
  obtain ⟨version, metadata, message, fields, hframe, -⟩ := h.frame
  simp [hframe]

theorem ascending_frame (h : wire.Laid) : Ascending wire.frame := by
  obtain ⟨version, metadata, message, fields, hframe, hversion, hmetadata, hmessage, hfields⟩ :=
    h.frame
  have hplain := plain_frame hversion hmetadata hmessage
  rw [hframe]
  exact (ascending_append hplain).mpr hfields.ascending

theorem ascending_metadata (h : wire.Laid) : Ascending wire.metadata := by
  obtain ⟨id, order, compactness, fields, hmetadata, hid, horder, hcompactness, hfields⟩ :=
    h.metadata
  have hplain := plain_metadata hid horder hcompactness
  rw [hmetadata]
  exact (ascending_append hplain).mpr hfields.ascending

end WireFrame.Laid

/-- What is relied on: elements have one encoding, compactness info is a SEQUENCE, and what is
accepted as a frame is laid out as the type of frames says. -/
structure Library.Layout (L : Library) : Prop where
  /-- An element that was read is written back to the same octets. -/
  any : L.any.Lawful
  /-- An element is its tag and its value. -/
  newAny : ∀ {tag value a}, L.newAny tag value = .ok a → a = ⟨tag, value⟩
  /-- Compactness info is a SEQUENCE. -/
  compressedDer : ∀ {c der a}, L.compressedDer c = .ok der → L.anyFromDer der = .ok a →
    a.tag = .sequence
  /-- What is accepted as a frame is laid out as one. -/
  accepted : ∀ {der wire}, WireFrame.parse L der = .ok wire → wire.Laid

/-- The fields past the envelope are written in the order of their tags. -/
def Library.ClosingAscends (L : Library) : Prop :=
  ∀ {priority lifetime parent matrix cs},
    L.closing priority lifetime parent matrix = .ok cs → Ascending cs

/-- **The layout of what is encoded field by field.** -/
theorem Library.Lawful.layout (hL : L.Lawful) (hclosing : L.ClosingAscends) : L.Layout where
  any := hL.any
  newAny := hL.newAny
  compressedDer := hL.compressedDer
  accepted {der wire} hparse := by
    obtain ⟨f, hf, -⟩ := bind_ok hparse
    obtain ⟨⟨version, stale, integrity, signer, hversion, hstale, hintegrity, hsigner, hframe⟩,
      hmetadata⟩ := holds_of_parse hL hf hparse
    obtain ⟨id, order, compactness, commitment, confidentiality, closing, hparts, hms⟩ :=
      metadataComponents_ok hmetadata
    refine ⟨⟨version, stale, _, integrity ++ signer, hframe,
      contextNumber_of_ne (hL.versionField hversion), hstale, rfl, ?_⟩,
      ⟨id, order, compactness, commitment ++ (confidentiality ++ closing), hms,
      contextNumber_of_ne (hL.idField hparts.id), contextNumber_of_ne (hL.orderField hparts.order),
      sequence_of_compactness hL hparts.compactness, ?_⟩⟩
    · have hlast : Fields signer := by
        simpa using Fields.optional (tagged_optional hL hsigner) Fields.nil (by simp)
      exact Fields.optional (tagged_optional hL hintegrity) hlast
        (past_of_tagged hL hsigner hL.signerTag)
    · have hpast := hL.closing hparts.closing
      have hlast : Fields closing := by
        refine ⟨?_, hclosing hparts.closing, ?_⟩
        · intro c hc
          obtain ⟨b, n, htag, -⟩ := hpast c hc
          exact ⟨n, contextNumber_of_tag htag⟩
        · intro c hc b n htag hle
          obtain ⟨b', n', htag', hlt⟩ := hpast c hc
          cases htag.symm.trans htag'
          omega
      refine Fields.optional (tagged_optional hL hparts.integrity)
        (Fields.optional (tagged_optional hL hparts.confidentiality) hlast hpast) ?_
      intro c hc
      rcases List.mem_append.mp hc with hc | hc
      · exact past_of_tagged hL hparts.confidentiality Nat.zero_lt_one c hc
      · obtain ⟨b, n, htag, hlt⟩ := hpast c hc
        exact ⟨b, n, htag, Nat.zero_lt_of_lt hlt⟩

/-! ### One component in its place -/

/-- One component is put in, in place of the one that is the target if there is one.  The
others stay as they are and in their order, and none of them is the target. -/
def Replaced (target : Any → Prop) (field : Any) (cs cs' : List Any) : Prop :=
  ∃ front held back, cs = front ++ (held ++ back) ∧ cs' = front ++ field :: back ∧
    (held = [] ∨ ∃ c, held = [c] ∧ target c) ∧ target field ∧ ∀ c ∈ front ++ back, ¬ target c

/-- **A tagged field.**  Behind components without a context tag, `set_tagged` replaces the
field that holds the number or puts the field in its place in the order. -/
theorem setTagged_replaces (hnew : ∀ {tag value a}, L.newAny tag value = .ok a → a = ⟨tag, value⟩)
    (plain : List Any) {fields cs : List Any} {number : ℕ} {der : Octets} (hnumber : number ≤ 1)
    (hplain : ∀ c ∈ plain, contextNumber c = none) (hfields : Fields fields)
    (h : setTagged L (plain ++ fields) number der = .ok cs) :
    ∃ fields', cs = plain ++ fields' ∧ Fields fields' ∧
      Replaced (fun c => contextNumber c = some number) ⟨.contextSpecific true number, der⟩
        (plain ++ fields) cs := by
  obtain ⟨below, held, past, rfl, hbelow, hheld, hpast⟩ := hfields.split hnumber
  have hfront : ∀ c ∈ plain ++ below, atOrPast number c = false := by
    intro c hc
    rcases List.mem_append.mp hc with hc | hc
    · exact atOrPast_of_none (hplain c hc)
    · obtain ⟨n, hn, hcn⟩ := hbelow c hc
      exact atOrPast_of_lt hcn hn
  rw [← List.append_assoc] at h
  obtain ⟨field, hfield, rfl⟩ := setTagged_eq (plain ++ below) hfront hheld hpast h
  obtain rfl := hnew hfield
  obtain ⟨hbelow', hrest⟩ := hfields.of_append
  refine ⟨below ++ ⟨.contextSpecific true number, der⟩ :: past, by simp, ?_, ?_⟩
  · exact Fields.join hbelow' hbelow rfl hrest.of_append.2 hpast
  · refine ⟨plain ++ below, held, past, by simp, rfl, ?_, rfl, ?_⟩
    · rcases hheld with rfl | ⟨value, rfl⟩
      · exact .inl rfl
      · exact .inr ⟨_, rfl, rfl⟩
    · intro c hc htarget
      rcases List.mem_append.mp hc with hc | hc
      · rcases List.mem_append.mp hc with hc | hc
        · rw [hplain c hc] at htarget
          cases htarget
        · obtain ⟨n, hn, hcn⟩ := hbelow c hc
          cases htarget.symm.trans hcn
          exact lt_irrefl _ hn
      · obtain ⟨b, k, htag, hlt⟩ := hpast c hc
        cases htarget.symm.trans (contextNumber_of_tag htag)
        exact lt_irrefl _ hlt

/-- **Compactness info** goes after the order, in place of the one that is there. -/
theorem setCompactness_replaces (hL : L.Layout) {wire wire' : WireFrame} {c : CompressedData}
    (hlaid : wire.Laid) (h : wire.setCompactness L c = .ok wire') :
    ∃ der field, L.compressedDer c = .ok der ∧ L.anyFromDer der = .ok field ∧
      wire'.frame = wire.frame ∧ wire'.Laid ∧ wire'.metadata.take 2 = wire.metadata.take 2 ∧
      Replaced (fun c => c.tag = .sequence) field (wire.metadata.drop 2) (wire'.metadata.drop 2) := by
  obtain ⟨id, order, compactness, fields, hmetadata, hid, horder, hcompactness, hfields⟩ :=
    hlaid.metadata
  obtain ⟨der, hder, h⟩ := bind_ok h
  obtain ⟨field, hfield, h⟩ := bind_ok h
  have htag := hL.compressedDer hder hfield
  have hnext : ∀ c ∈ fields, c.tag ≠ .sequence := by
    intro c hc heq
    obtain ⟨n, hn⟩ := hfields.tagged c hc
    rw [contextNumber_of_sequence heq] at hn
    cases hn
  have hwire : wire' = { wire with metadata := id :: order :: (field :: fields) } := by
    rw [hmetadata] at h
    rcases hcompactness with rfl | ⟨held, rfl, hheld⟩
    · -- the next component, if there is one, has a context tag
      simp only [List.nil_append, List.getElem?_cons_succ] at h
      cases fields with
      | nil => cases h; rfl
      | cons a rest =>
        simp only [List.getElem?_cons_zero] at h
        rw [if_neg (hnext a (List.mem_cons_self ..))] at h
        cases h
        rfl
    · simp only [List.getElem?_cons_succ, List.singleton_append, List.getElem?_cons_zero, hheld,
        if_true] at h
      cases h
      rfl
  subst hwire
  refine ⟨der, field, hder, hfield, rfl, ?_, by simp [hmetadata], ?_⟩
  · exact ⟨hlaid.frame, id, order, [field], fields, rfl, hid, horder, .inr ⟨field, rfl, htag⟩,
      hfields⟩
  · rw [hmetadata]
    refine ⟨[], compactness, fields, rfl, rfl, hcompactness, htag, hnext⟩

/-! ### Splices keep the layout -/

section Laid

variable {wire wire' : WireFrame}

/-- The metadata is put back. -/
theorem WireFrame.Laid.set_metadata (h : wire.Laid) {m : Any} (hm : m.tag = .sequence) :
    WireFrame.Laid ⟨wire.frame.set 1 m, wire.metadata⟩ := by
  obtain ⟨version, metadata, message, fields, hframe, hversion, -, hmessage, hfields⟩ := h.frame
  exact ⟨⟨version, m, message, fields, by rw [hframe]; rfl, hversion, hm, hmessage, hfields⟩,
    h.metadata⟩

/-- The body is replaced by the given octets. -/
theorem WireFrame.Laid.setMessage (hany : L.any.Lawful) (h : wire.Laid) {message : Octets}
    (hset : wire.setMessage L message = .ok wire') :
    wire' = { wire with frame := wire.frame.set 2 ⟨.octetString, message⟩ } ∧ wire'.Laid := by
  obtain ⟨der, hwrite, hset⟩ := bind_ok hset
  rw [anyFromDer_of_write hany hwrite] at hset
  obtain ⟨a, ha, hset⟩ := bind_ok hset
  cases ha
  rw [if_pos h.length_frame] at hset
  cases hset
  refine ⟨rfl, ?_, h.metadata⟩
  obtain ⟨version, metadata, held, fields, hframe, hversion, hmetadata, -, hfields⟩ := h.frame
  exact ⟨version, metadata, _, fields, by rw [hframe]; rfl, hversion, hmetadata, rfl, hfields⟩

/-- A tagged field of the metadata. -/
theorem WireFrame.Laid.setTagged_metadata (hL : L.Layout) (h : wire.Laid) {number : ℕ}
    (hnumber : number ≤ 1) {der : Octets} {ms : List Any}
    (hset : setTagged L wire.metadata number der = .ok ms) :
    WireFrame.Laid { wire with metadata := ms } ∧
      Replaced (fun c => contextNumber c = some number) ⟨.contextSpecific true number, der⟩
        wire.metadata ms := by
  obtain ⟨id, order, compactness, fields, hmetadata, hid, horder, hcompactness, hfields⟩ :=
    h.metadata
  have hplain := plain_metadata hid horder hcompactness
  rw [hmetadata] at hset
  obtain ⟨fields', rfl, hfields', hreplaced⟩ :=
    setTagged_replaces hL.newAny (id :: order :: compactness) hnumber hplain hfields hset
  rw [hmetadata]
  exact ⟨⟨h.frame, id, order, compactness, fields', rfl, hid, horder, hcompactness, hfields'⟩,
    hreplaced⟩

/-- A tagged field of the frame. -/
theorem WireFrame.Laid.setTagged_frame (hL : L.Layout) (h : wire.Laid) {number : ℕ}
    (hnumber : number ≤ 1) {der : Octets} {cs : List Any}
    (hset : setTagged L wire.frame number der = .ok cs) :
    WireFrame.Laid { wire with frame := cs } ∧
      Replaced (fun c => contextNumber c = some number) ⟨.contextSpecific true number, der⟩
        wire.frame cs ∧ cs[1]? = wire.frame[1]? := by
  obtain ⟨version, metadata, message, fields, hframe, hversion, hmetadata, hmessage, hfields⟩ :=
    h.frame
  have hplain := plain_frame hversion hmetadata hmessage
  rw [hframe] at hset
  obtain ⟨fields', rfl, hfields', hreplaced⟩ :=
    setTagged_replaces hL.newAny [version, metadata, message] hnumber hplain hfields hset
  rw [hframe]
  exact ⟨⟨⟨version, metadata, message, fields', rfl, hversion, hmetadata, hmessage, hfields'⟩,
    h.metadata⟩, hreplaced, rfl⟩

end Laid

/-! ### Octets, taken apart -/

/-- The octets are those of the components, one after the other, and the second component is
the metadata. -/
structure Opened (L : Library) (der : Octets) (wire : WireFrame) : Prop where
  /-- They are accepted as a frame. -/
  parse : WireFrame.parse L der = .ok wire
  /-- The components are all there is. -/
  octets : L.sequenceDer wire.frame = .ok der
  /-- The second one is the metadata. -/
  metadata : ∃ m, wire.frame[1]? = some m ∧ L.sequenceField wire.metadata = .ok m

/-- A sequence that was read is written back. -/
theorem sequenceDer_of_sequenceFromDer (hany : L.any.Lawful) {cs : List Any} {der : Octets}
    (h : L.sequenceFromDer der = .ok cs) : L.sequenceDer cs = .ok der := by
  obtain ⟨a, hread, h⟩ := bind_ok h
  split at h
  · next htag =>
    have hwrite := write_of_anyFromDer hany hread
    obtain ⟨tag, value⟩ := a
    cases htag
    rw [Library.sequenceDer, hany.writeAll_readAll h]
    exact hwrite
  · cases h

theorem opened_of_parse (hany : L.any.Lawful) {der : Octets} {wire : WireFrame}
    (h : WireFrame.parse L der = .ok wire) : Opened L der wire := by
  have hparse := h
  obtain ⟨f, -, h⟩ := bind_ok h
  obtain ⟨frame, hframe, h⟩ := bind_ok h
  split at h
  · cases h
  · next m hm =>
    obtain ⟨mder, hwrite, h⟩ := bind_ok h
    obtain ⟨ms, hms, h⟩ := bind_ok h
    cases h
    refine ⟨hparse, sequenceDer_of_sequenceFromDer hany hframe, m, hm, ?_⟩
    rw [Library.sequenceField, sequenceDer_of_sequenceFromDer hany hms]
    exact anyFromDer_of_write hany hwrite

/-- `finish` puts the metadata back and encodes the components. -/
theorem opened_finish (hany : L.any.Lawful) {wire : WireFrame} {der : Octets}
    (h : wire.finish L = .ok der) :
    ∃ m, L.sequenceField wire.metadata = .ok m ∧ m.tag = .sequence ∧
      Opened L der ⟨wire.frame.set 1 m, wire.metadata⟩ := by
  obtain ⟨m, hm, h⟩ := bind_ok h
  split at h
  · next hlen =>
    obtain ⟨spliced, hspliced, h⟩ := bind_ok h
    obtain ⟨f, hf, h⟩ := bind_ok h
    cases h
    obtain ⟨mder, hwrite, hread, htag⟩ := sequenceField_ok hany hm
    have hget : (wire.frame.set 1 m)[1]? = some m := by simp [hlen]
    refine ⟨m, hm, htag, ?_, hspliced, m, hget, hm⟩
    simp only [WireFrame.parse, hf, sequenceFromDer_of_sequenceDer hany hspliced, hget, hwrite, hread,
      bind, Except.bind]
  · cases h

/-! ### The operations -/

/-- The operations that splice a frame. -/
inductive Splice
  /-- `set_message_integrity`. -/
  | messageIntegrity (oid : Oid) (digest : Octets)
  /-- `set_confidentiality`. -/
  | confidentiality (envelopeDer ciphertext : Octets)
  /-- `set_compactness`. -/
  | compactness (contentOid : Option Oid) (algorithmOid : Oid) (parametersDer : Option Octets)
      (compressed : Octets)
  /-- `attach_witness`. -/
  | witness (oid : Oid) (digest : Octets)

/-- Run an operation on the octets of a frame. -/
def Splice.run (L : Library) (der : Octets) : Splice → Except TightBeamError Octets
  | .messageIntegrity oid digest => setMessageIntegrity L der oid digest
  | .confidentiality envelopeDer ciphertext => setConfidentiality L der envelopeDer ciphertext
  | .compactness contentOid algorithmOid parametersDer compressed =>
      setCompactness L der contentOid algorithmOid parametersDer compressed
  | .witness oid digest => attachWitness L der oid digest

/-- All that an operation does to the components: its target is put in its place, the body is
replaced where the operation has one, and of the frame's other components only the metadata
follows its own change. -/
def Splice.Touches (L : Library) (wire wire' : WireFrame) : Splice → Prop
  | .messageIntegrity oid digest =>
      (∃ der, L.digestDer ⟨algorithm oid, digest⟩ = .ok der ∧
        Replaced (fun c => contextNumber c = some 0) ⟨.contextSpecific true 0, der⟩
          wire.metadata wire'.metadata) ∧
      ∃ m, wire'.frame = wire.frame.set 1 m
  | .confidentiality envelopeDer ciphertext =>
      (∃ envelope der, L.parseEnvelope envelopeDer = .ok envelope ∧
        L.envelopeDer envelope = .ok der ∧
        Replaced (fun c => contextNumber c = some 1) ⟨.contextSpecific true 1, der⟩
          wire.metadata wire'.metadata) ∧
      ∃ m, wire'.frame = (wire.frame.set 2 ⟨.octetString, ciphertext⟩).set 1 m
  | .compactness contentOid algorithmOid parametersDer compressed =>
      (∃ parameters der field, transpose L.anyFromDer parametersDer = .ok parameters ∧
        L.compressedDer ⟨0, ⟨algorithmOid, parameters⟩, contentOid.getD .data, none⟩ = .ok der ∧
        L.anyFromDer der = .ok field ∧ wire'.metadata.take 2 = wire.metadata.take 2 ∧
        Replaced (fun c => c.tag = .sequence) field (wire.metadata.drop 2)
          (wire'.metadata.drop 2)) ∧
      ∃ m, wire'.frame = (wire.frame.set 2 ⟨.octetString, compressed⟩).set 1 m
  | .witness oid digest =>
      wire'.metadata = wire.metadata ∧
      ∃ der, L.digestDer ⟨algorithm oid, digest⟩ = .ok der ∧
        Replaced (fun c => contextNumber c = some 0) ⟨.contextSpecific true 0, der⟩
          wire.frame wire'.frame

/-- What is shown of an operation: both octet strings taken apart, all it touches, and the
layout of the result. -/
def Splice.Local (L : Library) (der der' : Octets) (op : Splice) : Prop :=
  ∃ wire wire', Opened L der wire ∧ Opened L der' wire' ∧ op.Touches L wire wire' ∧
    wire.Laid ∧ wire'.Laid

section Operations

variable {der der' : Octets}

theorem local_messageIntegrity (hL : L.Layout) {oid : Oid} {digest : Octets}
    (h : setMessageIntegrity L der oid digest = .ok der') :
    (Splice.messageIntegrity oid digest).Local L der der' := by
  obtain ⟨wire, hparse, h⟩ := bind_ok h
  obtain ⟨commitment, hcommitment, h⟩ := bind_ok h
  obtain ⟨metadata, hmetadata, h⟩ := bind_ok h
  have hlaid := hL.accepted hparse
  obtain ⟨hset, hreplaced⟩ := hlaid.setTagged_metadata hL (by decide) hmetadata
  obtain ⟨m, -, htag, hopened⟩ := opened_finish hL.any h
  exact ⟨wire, _, opened_of_parse hL.any hparse, hopened, ⟨⟨commitment, hcommitment, hreplaced⟩, m, rfl⟩,
    hlaid, hset.set_metadata htag⟩

theorem local_confidentiality (hL : L.Layout) {envelopeDer ciphertext : Octets}
    (h : setConfidentiality L der envelopeDer ciphertext = .ok der') :
    (Splice.confidentiality envelopeDer ciphertext).Local L der der' := by
  obtain ⟨envelope, henvelope, h⟩ := bind_ok h
  obtain ⟨wire, hparse, h⟩ := bind_ok h
  obtain ⟨encoded, hencoded, h⟩ := bind_ok h
  obtain ⟨metadata, hmetadata, h⟩ := bind_ok h
  obtain ⟨wire', hmessage, h⟩ := bind_ok h
  have hlaid := hL.accepted hparse
  obtain ⟨hset, hreplaced⟩ := hlaid.setTagged_metadata hL (by decide) hmetadata
  obtain ⟨rfl, hlaid'⟩ := hset.setMessage hL.any hmessage
  obtain ⟨m, -, htag, hopened⟩ := opened_finish hL.any h
  exact ⟨wire, _, opened_of_parse hL.any hparse, hopened,
    ⟨⟨envelope, encoded, henvelope, hencoded, hreplaced⟩, m, rfl⟩, hlaid,
    hlaid'.set_metadata htag⟩

theorem local_compactness (hL : L.Layout) {contentOid : Option Oid} {algorithmOid : Oid}
    {parametersDer : Option Octets} {compressed : Octets}
    (h : setCompactness L der contentOid algorithmOid parametersDer compressed = .ok der') :
    (Splice.compactness contentOid algorithmOid parametersDer compressed).Local L der der' := by
  obtain ⟨parameters, hparameters, h⟩ := bind_ok h
  obtain ⟨wire, hparse, h⟩ := bind_ok h
  obtain ⟨wire₁, hcompactness, h⟩ := bind_ok h
  obtain ⟨wire₂, hmessage, h⟩ := bind_ok h
  have hlaid := hL.accepted hparse
  obtain ⟨info, field, hinfo, hfield, hframe, hset, htake, hreplaced⟩ :=
    setCompactness_replaces hL hlaid hcompactness
  obtain ⟨rfl, hlaid'⟩ := hset.setMessage hL.any hmessage
  obtain ⟨m, -, htag, hopened⟩ := opened_finish hL.any h
  refine ⟨wire, _, opened_of_parse hL.any hparse, hopened,
    ⟨⟨parameters, info, field, hparameters, hinfo, hfield, htake, hreplaced⟩, m, ?_⟩, hlaid,
    hlaid'.set_metadata htag⟩
  rw [hframe]

theorem local_witness (hL : L.Layout) {oid : Oid} {digest : Octets}
    (h : attachWitness L der oid digest = .ok der') :
    (Splice.witness oid digest).Local L der der' := by
  obtain ⟨wire, hparse, h⟩ := bind_ok h
  obtain ⟨info, hinfo, h⟩ := bind_ok h
  obtain ⟨frame, hframe, h⟩ := bind_ok h
  have hlaid := hL.accepted hparse
  have hopen := opened_of_parse hL.any hparse
  obtain ⟨hset, hreplaced, hsecond⟩ := hlaid.setTagged_frame hL (by decide) hframe
  obtain ⟨m, hm, htag, hopened⟩ := opened_finish hL.any h
  -- the metadata that is put back is the one that was there
  have hsame : frame.set 1 m = frame := by
    obtain ⟨m', hm', hfield⟩ := hopen.metadata
    cases hm.symm.trans hfield
    obtain ⟨hlt, heq⟩ := List.getElem?_eq_some_iff.mp (hsecond.trans hm')
    rw [← heq, List.set_getElem_self]
  simp only [hsame] at hopened
  exact ⟨wire, _, hopen, hopened, ⟨rfl, info, hinfo, hreplaced⟩, hlaid, hset⟩

theorem Splice.local_of_run (hL : L.Layout) {op : Splice} (h : op.run L der = .ok der') :
    op.Local L der der' := by
  cases op with
  | messageIntegrity oid digest => exact local_messageIntegrity hL h
  | confidentiality envelopeDer ciphertext => exact local_confidentiality hL h
  | compactness contentOid algorithmOid parametersDer compressed => exact local_compactness hL h
  | witness oid digest => exact local_witness hL h

/-- **Splices are local.**  Take apart the octets before and after an operation that succeeds:
its target equals the new value and occurs once, the body is the given one where the operation
has one, all other components stay as they are and in their order, and the context fields of
both sequences are in strictly ascending tag order. -/
theorem splices_are_local (hL : L.Layout) (op : Splice) (h : op.run L der = .ok der') :
    ∃ wire wire', Opened L der wire ∧ Opened L der' wire' ∧ op.Touches L wire wire' ∧
      2 < wire.frame.length ∧ Ascending wire.frame ∧ Ascending wire.metadata ∧
      Ascending wire'.frame ∧ Ascending wire'.metadata := by
  obtain ⟨wire, wire', hopen, hopen', htouches, hlaid, hlaid'⟩ := Splice.local_of_run hL h
  exact ⟨wire, wire', hopen, hopen', htouches, hlaid.length_frame, hlaid.ascending_frame,
    hlaid.ascending_metadata, hlaid'.ascending_frame, hlaid'.ascending_metadata⟩

end Operations

namespace Small

theorem closing_ascends (known : List Frame) : (library known).ClosingAscends := by
  intro priority lifetime parent matrix cs h
  obtain ⟨-, -, -, -, rfl⟩ := closing_ok h
  exact List.Pairwise.nil

/-- An envelope is set on a frame that is committed to and compressed. -/
theorem sealing_is_local : ∃ der der' wire wire',
    toDer (frameOf (some profileCompactness) (some ⟨⟨sha3, none⟩, [6]⟩) none
      [0x2A, 0x01, 0x04, 0x03, 0x30] none) = .ok der ∧
    setConfidentiality (library frames) der envelopeOctets [0xD5, 0xFE, 0xFB, 0xFC, 0xCF] =
      .ok der' ∧
    Opened (library frames) der wire ∧ Opened (library frames) der' wire' ∧
    (Splice.confidentiality envelopeOctets [0xD5, 0xFE, 0xFB, 0xFC, 0xCF]).Touches
      (library frames) wire wire' ∧ Ascending wire'.metadata := by
  have hrun : ((toDer (frameOf (some profileCompactness) (some ⟨⟨sha3, none⟩, [6]⟩) none
      [0x2A, 0x01, 0x04, 0x03, 0x30] none)).bind fun der =>
      setConfidentiality (library frames) der envelopeOctets [0xD5, 0xFE, 0xFB, 0xFC, 0xCF]).map
      List.length = .ok 126 := by decide +kernel
  obtain ⟨der', hder', -⟩ := map_ok hrun
  obtain ⟨der, hder, hset⟩ := bind_ok hder'
  obtain ⟨wire, wire', hopen, hopen', htouches, -, -, -, -, hascending⟩ :=
    splices_are_local ((lawful frames).layout (closing_ascends frames))
      (.confidentiality envelopeOctets [0xD5, 0xFE, 0xFB, 0xFC, 0xCF]) hset
  exact ⟨der, der', wire, wire', hder, hset, hopen, hopen', htouches, hascending⟩

end Small

end Ws
end TightbeamExt
