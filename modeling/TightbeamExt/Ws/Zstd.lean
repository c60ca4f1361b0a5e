import Mathlib.Data.Nat.Digits.Lemmas
import TightbeamExt.Base.Rounding
import TightbeamExt.Ws.Received

/-!
# The output ceiling of zstd

A compressed body comes off the wire, and its size says nothing of the size of what it holds.
`ZstdCompression` reads the size the zstd frame declares before the library sees the frame.  The
header of a frame is laid out by its descriptor, so the reader and the header are compared field
by field; an eight-octet size becomes a double, and rounding to 53 bits does not change how it
compares with a safe integer.

## Main definitions

* `FrameHeader` — the header of a zstd frame, as RFC 8878 section 3.1.1.1 lays it out.
* `declaredContentSize` — the reader of the client.
* `ZstdCompression.decompress` — the calls into the library, and the outcome.

## Main results

* `declaredContentSize_header`, `declaredContentSize_eq_none` — the reader agrees with the header.
* `zstd_output_ceiling` — **no output is larger than the ceiling.**
-/

namespace TightbeamExt
namespace Ws

open Asn (Octets)

/-! ### Numbers -/

/-- The number little-endian octets stand for. -/
def littleEndian (octets : Octets) : ℕ := Nat.ofDigits 256 (octets.map UInt8.toNat)

theorem littleEndian_lt (octets : Octets) : littleEndian octets < 256 ^ octets.length := by
  have h := Nat.ofDigits_lt_base_pow_length (b := 256) (l := octets.map UInt8.toNat) (by decide)
    (by
      intro digit hdigit
      obtain ⟨octet, -, rfl⟩ := List.mem_map.1 hdigit
      exact octet.toNat_lt)
  simpa [littleEndian] using h

theorem littleEndian_inj {left right : Octets} (hlength : left.length = right.length) :
    littleEndian left = littleEndian right ↔ left = right := by
  constructor
  · intro h
    have hdigits : left.map UInt8.toNat = right.map UInt8.toNat := by
      refine Nat.ofDigits_inj_of_len_eq (b := 256) (by decide) (by simpa using hlength) ?_ ?_ h <;>
      · intro digit hdigit
        obtain ⟨octet, -, rfl⟩ := List.mem_map.1 hdigit
        exact octet.toNat_lt
    exact List.map_injective_iff.2 (fun _ _ => UInt8.toNat_inj.1) hdigits
  · rintro rfl
    rfl

/-- A finite double. -/
def IsDouble (x : ℚ) : Prop :=
  ∃ m e : ℤ, |m| < 2 ^ 53 ∧ -1074 ≤ e ∧ e ≤ 971 ∧ x = m * 2 ^ e

/-- `Number` of a bigint that is not negative. -/
def toNumber (n : ℕ) : ℕ := Rounding.roundEven 53 n

/-- `Number.isSafeInteger`. -/
def IsSafeInteger (n : ℤ) : Prop := |n| < 2 ^ 53

instance (n : ℤ) : Decidable (IsSafeInteger n) := inferInstanceAs (Decidable (|n| < 2 ^ 53))

/-- The multiple of a unit nearest to `x`, the even one halfway. -/
def nearestMultiple (unit x : ℕ) : ℕ :=
  if 2 * (x % unit) < unit ∨ (2 * (x % unit) = unit ∧ x / unit % 2 = 0) then x / unit * unit
  else (x / unit + 1) * unit

/-- What `Number::toString` writes of a double below `10 ^ 21`: the fewest leading digits that read
back as it, and zeros. -/
def shortestDecimal (x : ℕ) : ℕ :=
  let zeros := (List.range (Nat.digits 10 x).length).reverse
  match zeros.find? fun z => toNumber (nearestMultiple (10 ^ z) x) = x with
  | some z => nearestMultiple (10 ^ z) x
  | none => x

example : shortestDecimal 18446744073709551616 = 18446744073709552000 := by decide +kernel

theorem toNumber_of_lt {n : ℕ} (h : n < 2 ^ 53) : toNumber n = n :=
  Rounding.roundEven_of_lt (by decide) h

/-- The double of a 64-bit number. -/
theorem isDouble_toNumber {n : ℕ} (h : n < 2 ^ 64) : IsDouble (toNumber n) := by
  obtain ⟨m, e, hm, he, hround⟩ := Rounding.roundEven_digits (p := 53) (by decide) n
  have hlog : n.log2 < 64 := by
    by_cases hn : n = 0
    · simp [hn]
    · exact (Nat.log2_lt hn).2 h
  refine ⟨m, e, ?_, by omega, by omega, ?_⟩
  · rw [Nat.abs_cast]
    exact_mod_cast hm
  · rw [toNumber, hround, zpow_natCast]
    push_cast
    rfl

/-- No double is nearer. -/
theorem toNumber_nearest {x : ℚ} (n : ℕ) (hx : IsDouble x) :
    |(n : ℚ) - toNumber n| ≤ |(n : ℚ) - x| := by
  obtain ⟨m, e, hm, -, -, rfl⟩ := hx
  exact Rounding.roundEven_nearest (by decide) ⟨m, e, hm, rfl⟩

/-- A safe integer is below a number as it is below its double. -/
theorem lt_toNumber {m : ℤ} (hm : IsSafeInteger m) (n : ℕ) : m < toNumber n ↔ m < n := by
  by_cases hneg : m < 0
  · constructor <;> intro <;> omega
  · obtain ⟨k, rfl⟩ := Int.eq_ofNat_of_zero_le (not_lt.1 hneg)
    have hk : k < 2 ^ 53 := by
      have := (abs_lt.1 hm).2
      omega
    have h := Rounding.lt_roundEven (n := n) (by decide) hk
    exact_mod_cast h

/-! ### The header of a frame -/

/-- The magic number, as its octets stand. -/
def magicNumber : Octets := [0x28, 0xB5, 0x2F, 0xFD]

/-- `Single_Segment_flag`. -/
def singleSegmentFlag (descriptor : UInt8) : Bool := descriptor.toNat / 32 % 2 == 1

/-- Octets of `Window_Descriptor`. -/
def windowDescriptorSize (descriptor : UInt8) : ℕ := if singleSegmentFlag descriptor then 0 else 1

/-- Octets of `Dictionary_ID`, by the two last bits. -/
def dictionaryIdSize (descriptor : UInt8) : ℕ :=
  match descriptor.toNat % 4 with
  | 0 => 0
  | 1 => 1
  | 2 => 2
  | _ => 4

/-- Octets of `Frame_Content_Size`, by the two first bits and `Single_Segment_flag`. -/
def contentSizeFieldSize (descriptor : UInt8) : ℕ :=
  match descriptor.toNat / 64 with
  | 0 => if singleSegmentFlag descriptor then 1 else 0
  | 1 => 2
  | 2 => 4
  | _ => 8

/-- `Frame_Header`, after the magic number. -/
structure FrameHeader where
  /-- `Frame_Header_Descriptor`. -/
  descriptor : UInt8
  /-- `Window_Descriptor`. -/
  windowDescriptor : Octets
  /-- `Dictionary_ID`. -/
  dictionaryId : Octets
  /-- `Frame_Content_Size`. -/
  frameContentSize : Octets
  /-- The descriptor sets the length of the window descriptor. -/
  length_windowDescriptor : windowDescriptor.length = windowDescriptorSize descriptor
  /-- The descriptor sets the length of the dictionary's identifier. -/
  length_dictionaryId : dictionaryId.length = dictionaryIdSize descriptor
  /-- The descriptor sets the length of the size. -/
  length_frameContentSize : frameContentSize.length = contentSizeFieldSize descriptor

namespace FrameHeader

/-- The fields the descriptor lays out. -/
def fields (h : FrameHeader) : Octets :=
  h.windowDescriptor ++ h.dictionaryId ++ h.frameContentSize

/-- The octets that open a frame with this header. -/
def octets (h : FrameHeader) : Octets := magicNumber ++ h.descriptor :: h.fields

/-- The declared size; a two-octet size counts from 256. -/
def contentSize (h : FrameHeader) : Option ℕ :=
  match h.frameContentSize.length with
  | 0 => none
  | 2 => some (littleEndian h.frameContentSize + 256)
  | _ => some (littleEndian h.frameContentSize)

end FrameHeader

/-- The octets start a zstd frame. -/
def OpensFrame (data : Octets) : Prop := magicNumber <+: data

/-- The frame ends before its header does. -/
def TruncatedHeader (data : Octets) : Prop :=
  OpensFrame data ∧ ∃ h : FrameHeader, data <+: h.octets ∧ data.length < h.octets.length

/-- The frame declares no size. -/
def DeclaresNone (data : Octets) : Prop :=
  ∃ h : FrameHeader, h.octets <+: data ∧ h.contentSize = none

/-- The frame declares the size `n`. -/
def Declares (data : Octets) (n : ℕ) : Prop :=
  ∃ h : FrameHeader, h.octets <+: data ∧ h.contentSize = some n

/-! ### The reader of the client -/

/-- `ZSTD_FRAME_MAGIC`. -/
def zstdFrameMagic : ℕ := 0xfd2fb528

/-- `ZSTD_DESCRIPTOR_END`: octets of the magic number and the descriptor. -/
def zstdDescriptorEnd : ℕ := 5

/-- `ZSTD_WINDOW_DESCRIPTOR`: octets of the window descriptor. -/
def zstdWindowDescriptor : ℕ := 1

/-- `CONTENT_SIZE_FIELD`. -/
def contentSizeField : List ℕ := [1, 2, 4, 8]

/-- `DICTIONARY_ID_FIELD`. -/
def dictionaryIdField : List ℕ := [0, 1, 2, 4]

/-- `TWO_OCTET_CONTENT_SIZE_OFFSET`. -/
def twoOctetContentSizeOffset : ℕ := 256

/-- The little-endian reads of a `DataView`, which holds the octets asked for. -/
def getUint (data : Octets) (offset width : ℕ) : ℕ := littleEndian ((data.drop offset).take width)

/-- `declaredContentSize`. -/
def declaredContentSize (data : Octets) : Option ℕ :=
  if data.length < zstdDescriptorEnd then none
  else if getUint data 0 4 ≠ zstdFrameMagic then none
  else
    let descriptor := getUint data 4 1
    let sizeFlag := descriptor >>> 6
    let singleSegment := descriptor &&& 0x20 != 0
    if sizeFlag = 0 ∧ singleSegment = false then none
    else
      let afterDictionary := zstdDescriptorEnd + dictionaryIdField.getD (descriptor &&& 0x03) 0
      let offset :=
        if singleSegment then afterDictionary else afterDictionary + zstdWindowDescriptor
      let sizeField := contentSizeField.getD sizeFlag 0
      if data.length < offset + sizeField then none
      else
        match sizeField with
        | 1 => some (getUint data offset 1)
        | 2 => some (getUint data offset 2 + twoOctetContentSizeOffset)
        | 4 => some (getUint data offset 4)
        | _ => some (toNumber (getUint data offset 8))

/-! ### The reader agrees with the header -/

section

variable {descriptor : UInt8} {data rest : Octets}

set_option maxRecDepth 20000 in
/-- The masks of the reader are the bit fields of the descriptor. -/
theorem descriptor_masks : ∀ descriptor : Fin 256,
    descriptor.val >>> 6 = descriptor.val / 64 ∧
      (descriptor.val &&& 0x20 != 0) = (descriptor.val / 32 % 2 == 1) ∧
      descriptor.val &&& 0x03 = descriptor.val % 4 := by
  decide

/-- Octets of the fields after the descriptor. -/
def fieldsSize (descriptor : UInt8) : ℕ :=
  windowDescriptorSize descriptor + dictionaryIdSize descriptor + contentSizeFieldSize descriptor

theorem FrameHeader.length_fields (h : FrameHeader) : h.fields.length = fieldsSize h.descriptor := by
  rw [fields, List.length_append, List.length_append, h.length_windowDescriptor,
    h.length_dictionaryId, h.length_frameContentSize, fieldsSize]

theorem FrameHeader.octets_prefix_iff {h : FrameHeader} :
    h.octets <+: magicNumber ++ descriptor :: rest ↔
      h.descriptor = descriptor ∧ h.fields <+: rest := by
  simp [octets, List.prefix_append_right_inj, List.cons_prefix_cons]

/-- Enough octets after the descriptor are a header. -/
theorem exists_header (hrest : fieldsSize descriptor ≤ rest.length) :
    ∃ h : FrameHeader, h.descriptor = descriptor ∧ h.fields <+: rest := by
  unfold fieldsSize at hrest
  refine ⟨⟨descriptor, rest.take (windowDescriptorSize descriptor),
    (rest.drop (windowDescriptorSize descriptor)).take (dictionaryIdSize descriptor),
    (rest.drop (windowDescriptorSize descriptor + dictionaryIdSize descriptor)).take
      (contentSizeFieldSize descriptor), ?_, ?_, ?_⟩, rfl, ?_⟩
  · rw [List.length_take]
    omega
  · rw [List.length_take, List.length_drop]
    omega
  · rw [List.length_take, List.length_drop]
    omega
  · show _ ++ _ ++ _ <+: rest
    rw [← List.take_add, ← List.take_add]
    exact List.take_prefix _ _

/-- The size a header declares, read where the reader reads it. -/
theorem FrameHeader.take_fields {h : FrameHeader} (hfields : h.fields <+: rest) :
    (rest.drop (dictionaryIdSize h.descriptor + windowDescriptorSize h.descriptor)).take
      (contentSizeFieldSize h.descriptor) = h.frameContentSize := by
  obtain ⟨frame, rfl⟩ := hfields
  have hlength : (h.windowDescriptor ++ h.dictionaryId).length =
      dictionaryIdSize h.descriptor + windowDescriptorSize h.descriptor := by
    rw [List.length_append, h.length_windowDescriptor, h.length_dictionaryId, Nat.add_comm]
  rw [fields, List.append_assoc, List.drop_left' hlength, List.take_left' h.length_frameContentSize]

/-! The reads of the client, past the magic number. -/

theorem getUint_magic : getUint (magicNumber ++ descriptor :: rest) 0 4 = zstdFrameMagic := by
  show littleEndian magicNumber = zstdFrameMagic
  decide

theorem getUint_descriptor :
    getUint (magicNumber ++ descriptor :: rest) 4 1 = descriptor.toNat := by
  simp [getUint, magicNumber, littleEndian]

theorem getUint_fields (k width : ℕ) :
    getUint (magicNumber ++ descriptor :: rest) (zstdDescriptorEnd + k) width =
      littleEndian ((rest.drop k).take width) := by
  rw [getUint, ← List.drop_drop]
  rfl

theorem dictionaryIdField_getD (descriptor : UInt8) :
    dictionaryIdField.getD (descriptor.toNat % 4) 0 = dictionaryIdSize descriptor := by
  have h := Nat.mod_lt descriptor.toNat (y := 4) (by decide)
  unfold dictionaryIdSize
  generalize descriptor.toNat % 4 = flag at h
  interval_cases flag <;> rfl

/-- The reader's table gives the length of the size, where there is one. -/
theorem contentSizeField_getD (descriptor : UInt8) :
    contentSizeFieldSize descriptor =
      if descriptor.toNat / 64 = 0 ∧ singleSegmentFlag descriptor = false then 0
      else contentSizeField.getD (descriptor.toNat / 64) 0 := by
  have h : descriptor.toNat / 64 < 4 := by
    have := descriptor.toNat_lt
    omega
  unfold contentSizeFieldSize
  generalize descriptor.toNat / 64 = flag at h
  interval_cases flag <;> cases singleSegmentFlag descriptor <;> rfl

theorem contentSizeField_mem {flag : ℕ} (h : flag < 4) :
    contentSizeField.getD flag 0 ∈ contentSizeField := by
  interval_cases flag <;> decide

/-- The reader, past the magic number, in terms of the header. -/
theorem declaredContentSize_cons (descriptor : UInt8) (rest : Octets) :
    declaredContentSize (magicNumber ++ descriptor :: rest) =
      if contentSizeFieldSize descriptor = 0 then none
      else if rest.length < fieldsSize descriptor then none
      else
        let size := littleEndian
          ((rest.drop (dictionaryIdSize descriptor + windowDescriptorSize descriptor)).take
            (contentSizeFieldSize descriptor))
        match contentSizeFieldSize descriptor with
        | 2 => some (size + 256)
        | 8 => some (toNumber size)
        | _ => some size := by
  have hlong : ¬ (magicNumber ++ descriptor :: rest).length < zstdDescriptorEnd := by
    simp [magicNumber, zstdDescriptorEnd]
  obtain ⟨hflag, hsingle, hdictionary⟩ := descriptor_masks ⟨descriptor.toNat, descriptor.toNat_lt⟩
  have hsegment : (descriptor.toNat &&& 0x20 != 0) = singleSegmentFlag descriptor := hsingle
  have hoffset : (if singleSegmentFlag descriptor = true then
        zstdDescriptorEnd + dictionaryIdSize descriptor
      else zstdDescriptorEnd + dictionaryIdSize descriptor + zstdWindowDescriptor) =
      zstdDescriptorEnd + (dictionaryIdSize descriptor + windowDescriptorSize descriptor) := by
    unfold windowDescriptorSize
    split <;> simp [zstdWindowDescriptor, Nat.add_assoc]
  unfold declaredContentSize
  simp only [hlong, if_false, getUint_magic, ne_eq, not_true, getUint_descriptor, hflag,
    hsegment, hdictionary, dictionaryIdField_getD, hoffset]
  by_cases hnone : descriptor.toNat / 64 = 0 ∧ singleSegmentFlag descriptor = false
  · rw [if_pos hnone, contentSizeField_getD, if_pos hnone, if_pos rfl]
  · have hsize : contentSizeField.getD (descriptor.toNat / 64) 0 =
        contentSizeFieldSize descriptor := by
      rw [contentSizeField_getD, if_neg hnone]
    have hmem : contentSizeFieldSize descriptor ∈ contentSizeField := by
      rw [← hsize]
      have := descriptor.toNat_lt
      exact contentSizeField_mem (by omega)
    have hpos : contentSizeFieldSize descriptor ≠ 0 := by
      intro h
      rw [h] at hmem
      exact absurd hmem (by decide)
    have hshort : (magicNumber ++ descriptor :: rest).length < zstdDescriptorEnd +
          (dictionaryIdSize descriptor + windowDescriptorSize descriptor) +
          contentSizeFieldSize descriptor ↔ rest.length < fieldsSize descriptor := by
      simp only [magicNumber, zstdDescriptorEnd, fieldsSize, List.length_append, List.length_cons,
        List.length_nil]
      omega
    rw [if_neg hnone, if_neg hpos]
    simp only [hsize, hshort, getUint_fields]
    congr 1
    -- the four widths of the table
    simp only [contentSizeField, List.mem_cons, List.not_mem_nil, or_false] at hmem
    rcases hmem with h | h | h | h <;> rw [h] <;> rfl

theorem contentSizeFieldSize_mem (descriptor : UInt8) :
    contentSizeFieldSize descriptor = 0 ∨ contentSizeFieldSize descriptor = 1 ∨
      contentSizeFieldSize descriptor = 2 ∨ contentSizeFieldSize descriptor = 4 ∨
      contentSizeFieldSize descriptor = 8 := by
  unfold contentSizeFieldSize
  split
  · cases singleSegmentFlag descriptor <;> simp
  · simp
  · simp
  · simp

theorem FrameHeader.contentSize_eq_none {h : FrameHeader} :
    h.contentSize = none ↔ contentSizeFieldSize h.descriptor = 0 := by
  unfold contentSize
  rw [h.length_frameContentSize]
  rcases contentSizeFieldSize_mem h.descriptor with hw | hw | hw | hw | hw <;> simp [hw]

/-- **The reader gives the declared size**, rounded when it is eight octets long. -/
theorem declaredContentSize_header {h : FrameHeader} {n : ℕ} (hbegins : h.octets <+: data)
    (hsize : h.contentSize = some n) :
    declaredContentSize data = some (toNumber n) ∧
      (h.frameContentSize.length ≠ 8 → toNumber n = n) ∧ n < 2 ^ 64 := by
  obtain ⟨frame, rfl⟩ := hbegins
  have hfields : h.fields <+: h.fields ++ frame := List.prefix_append _ _
  have hlong : ¬ (h.fields ++ frame).length < fieldsSize h.descriptor := by
    rw [List.length_append, h.length_fields]
    omega
  have hpos : contentSizeFieldSize h.descriptor ≠ 0 := by
    intro hzero
    rw [FrameHeader.contentSize_eq_none.2 hzero] at hsize
    cases hsize
  have hbound := littleEndian_lt h.frameContentSize
  rw [h.length_frameContentSize] at hbound
  rw [FrameHeader.octets, List.append_assoc, List.cons_append, declaredContentSize_cons,
    if_neg hpos, if_neg hlong, FrameHeader.take_fields hfields]
  unfold FrameHeader.contentSize at hsize
  rw [h.length_frameContentSize] at hsize ⊢
  rcases contentSizeFieldSize_mem h.descriptor with hw | hw | hw | hw | hw
  · exact absurd hw hpos
  all_goals
    rw [hw] at hsize hbound ⊢
    obtain rfl := Option.some.inj hsize
  · have hkeep := toNumber_of_lt (n := littleEndian h.frameContentSize) (by omega)
    refine ⟨?_, fun _ => hkeep, by omega⟩
    rw [hkeep]
    rfl
  · have hkeep := toNumber_of_lt (n := littleEndian h.frameContentSize + 256) (by omega)
    refine ⟨?_, fun _ => hkeep, by omega⟩
    rw [hkeep]
    rfl
  · have hkeep := toNumber_of_lt (n := littleEndian h.frameContentSize) (by omega)
    refine ⟨?_, fun _ => hkeep, by omega⟩
    rw [hkeep]
    rfl
  · exact ⟨rfl, fun h => absurd rfl h, by omega⟩

/-- A header ends early when its fields are not all there. -/
theorem truncatedHeader_cons :
    TruncatedHeader (magicNumber ++ descriptor :: rest) ↔ rest.length < fieldsSize descriptor := by
  constructor
  · rintro ⟨-, h, hbegins, hlt⟩
    obtain ⟨rfl, -⟩ : descriptor = h.descriptor ∧ rest <+: h.fields := by
      simpa only [FrameHeader.octets, List.prefix_append_right_inj, List.cons_prefix_cons] using
        hbegins
    rw [← h.length_fields]
    simpa [FrameHeader.octets] using hlt
  · intro hlt
    -- zeros complete the header
    obtain ⟨h, rfl, hfields⟩ := @exists_header descriptor
      (rest ++ List.replicate (fieldsSize descriptor) 0) (by simp)
    have hrest : rest <+: h.fields := by
      refine List.prefix_of_prefix_length_le (List.prefix_append _ _) hfields ?_
      rw [h.length_fields]
      exact hlt.le
    refine ⟨List.prefix_append _ _, h, ?_, ?_⟩
    · rw [FrameHeader.octets, List.prefix_append_right_inj, List.cons_prefix_cons]
      exact ⟨rfl, hrest⟩
    · simpa [FrameHeader.octets, h.length_fields] using hlt

/-- A frame declares no size when its descriptor leaves none room. -/
theorem declaresNone_cons :
    DeclaresNone (magicNumber ++ descriptor :: rest) ↔
      fieldsSize descriptor ≤ rest.length ∧ contentSizeFieldSize descriptor = 0 := by
  constructor
  · rintro ⟨h, hbegins, hnone⟩
    obtain ⟨rfl, hfields⟩ := FrameHeader.octets_prefix_iff.1 hbegins
    refine ⟨?_, FrameHeader.contentSize_eq_none.1 hnone⟩
    rw [← h.length_fields]
    exact hfields.length_le
  · rintro ⟨hlong, hzero⟩
    obtain ⟨h, rfl, hfields⟩ := exists_header hlong
    exact ⟨h, FrameHeader.octets_prefix_iff.2 ⟨rfl, hfields⟩,
      FrameHeader.contentSize_eq_none.2 hzero⟩

/-- **The reader gives no size** just where a frame declares none. -/
theorem declaredContentSize_eq_none :
    declaredContentSize data = none ↔
      ¬ OpensFrame data ∨ TruncatedHeader data ∨ DeclaresNone data := by
  by_cases hopen : OpensFrame data
  · obtain ⟨tail, rfl⟩ := hopen
    cases tail with
    | nil =>
      obtain ⟨h, -, -⟩ := @exists_header 0 (List.replicate 8 0) (by decide)
      have htruncated : TruncatedHeader (magicNumber ++ []) :=
        ⟨List.prefix_append _ _, h, by simp [FrameHeader.octets], by simp [FrameHeader.octets]⟩
      exact ⟨fun _ => .inr (.inl htruncated), fun _ => rfl⟩
    | cons descriptor rest =>
      rw [truncatedHeader_cons, declaresNone_cons, declaredContentSize_cons]
      have hopens : OpensFrame (magicNumber ++ descriptor :: rest) := List.prefix_append _ _
      by_cases hzero : contentSizeFieldSize descriptor = 0
      · rw [if_pos hzero]
        have := lt_or_ge rest.length (fieldsSize descriptor)
        tauto
      · by_cases hshort : rest.length < fieldsSize descriptor
        · rw [if_neg hzero, if_pos hshort]
          tauto
        · rw [if_neg hzero, if_neg hshort]
          rcases contentSizeFieldSize_mem descriptor with hw | hw | hw | hw | hw
          · exact absurd hw hzero
          all_goals simp [hw, hopens, hshort]
  · refine ⟨fun _ => .inl hopen, fun _ => ?_⟩
    unfold declaredContentSize
    split
    · rfl
    · next hlong =>
      -- the four first octets are the magic number or another number
      have hmagic : getUint data 0 4 ≠ zstdFrameMagic := by
        intro heq
        apply hopen
        have htake : data.take 4 = magicNumber := by
          refine (littleEndian_inj ?_).1 (heq.trans (by decide))
          rw [List.length_take, magicNumber]
          simp only [zstdDescriptorEnd] at hlong
          simp only [List.length_cons, List.length_nil]
          omega
        rw [OpensFrame, ← htake]
        exact List.take_prefix 4 data
      rw [if_pos hmagic]

/-- The reader gives a size just where a frame declares one. -/
theorem declaredContentSize_eq_some {r : ℕ} :
    declaredContentSize data = some r ↔ ∃ n, Declares data n ∧ toNumber n = r := by
  constructor
  · intro hread
    have hsome : ¬ (¬ OpensFrame data ∨ TruncatedHeader data ∨ DeclaresNone data) := by
      rw [← declaredContentSize_eq_none, hread]
      exact Option.some_ne_none r
    obtain ⟨hopen, hwhole, hdeclares⟩ : OpensFrame data ∧ ¬ TruncatedHeader data ∧
        ¬ DeclaresNone data := by tauto
    obtain ⟨tail, rfl⟩ := hopen
    cases tail with
    | nil => cases hread
    | cons descriptor rest =>
      rw [truncatedHeader_cons, not_lt] at hwhole
      obtain ⟨h, rfl, hfields⟩ := exists_header hwhole
      have hbegins : h.octets <+: magicNumber ++ h.descriptor :: rest :=
        FrameHeader.octets_prefix_iff.2 ⟨rfl, hfields⟩
      have hsize : h.contentSize ≠ none := fun hnone => hdeclares ⟨h, hbegins, hnone⟩
      obtain ⟨n, hn⟩ := Option.ne_none_iff_exists'.1 hsize
      have hgives := (declaredContentSize_header hbegins hn).1
      exact ⟨n, ⟨h, hbegins, hn⟩, Option.some.inj (hgives.symm.trans hread)⟩
  · rintro ⟨n, ⟨h, hbegins, hsize⟩, rfl⟩
    exact (declaredContentSize_header hbegins hsize).1

end

/-! ### Decompression -/

/-- `PROFILE_OIDS.zstd`. -/
def zstdOid : String := "1.3.6.1.4.1.64586.2.1"

/-- `ZstdModule`: what `zstdModule` loads. -/
structure ZstdModule where
  /-- Compress at the default level. -/
  compress : Octets → Except Fault Octets
  /-- Decompress, given the option `defaultHeapSize`. -/
  decompress : Octets → ℤ → Except Fault Octets

/-- A call into the library. -/
inductive ZstdCall
  /-- Load and initialize the module. -/
  | load
  /-- `compress`. -/
  | compress (data : Octets)
  /-- `decompress`. -/
  | decompress (data : Octets) (defaultHeapSize : ℤ)
  deriving DecidableEq, Repr

/-- A run: the calls into the library, and the outcome. -/
structure ZstdRun (α : Type) where
  /-- The calls, the first one first. -/
  calls : List ZstdCall
  /-- What the promise settles with. -/
  outcome : Except Fault α

/-- `requireZstd`. -/
def requireZstd (compressed : CompressedBody) : Except Fault Unit :=
  if compressed.algorithmOid ≠ zstdOid then
    .error (.validation "ALGORITHM_MISMATCH" [⟨"compactness.algorithmOid",
      s!"Compressed with {compressed.algorithmOid}, but this inflator opens {zstdOid}"⟩])
  else .ok ()

/-- `ZstdCompression`. -/
structure ZstdCompression where
  /-- What loading the library gives. -/
  zstdModule : Except Fault ZstdModule
  /-- The ceiling, 16 MiB by default. -/
  maxOutput : ℤ := 16 * 1024 * 1024

namespace ZstdCompression

variable (Z : ZstdCompression)

/-- What a frame that declares too much is refused with. -/
def outputLimitExceeded (declaredOutput : ℕ) : Fault :=
  .validation "OUTPUT_LIMIT_EXCEEDED" [⟨"compactness.data",
    s!"Decompressed size {shortestDecimal declaredOutput} exceeds the {Z.maxOutput}-byte ceiling"⟩]

/-- The library decompresses: load it, then call it. -/
def callDecompress (data : Octets) : ZstdRun Octets :=
  match Z.zstdModule with
  | .error fault => ⟨[.load], .error fault⟩
  | .ok zstd => ⟨[.load, .decompress data Z.maxOutput], zstd.decompress data Z.maxOutput⟩

/-- `decompress`. -/
def decompress (compressed : CompressedBody) : ZstdRun Octets :=
  match requireZstd compressed with
  | .error fault => ⟨[], .error fault⟩
  | .ok () =>
      match declaredContentSize compressed.data with
      | none => Z.callDecompress compressed.data
      | some declaredOutput =>
          if Z.maxOutput < declaredOutput then ⟨[], .error (Z.outputLimitExceeded declaredOutput)⟩
          else Z.callDecompress compressed.data

/-- `compress`. -/
def compress (bodyDer : Octets) : ZstdRun CompressedBody :=
  match Z.zstdModule with
  | .error fault => ⟨[.load], .error fault⟩
  | .ok zstd => ⟨[.load, .compress bodyDer], (zstd.compress bodyDer).map (⟨zstdOid, none, none, ·⟩)⟩

/-- As the inflator of a received frame. -/
def inflator : BodyInflator := ⟨fun compressed => (Z.decompress compressed).outcome⟩

/-- As the compressor of a frame to build. -/
def compressor : BodyCompressor := ⟨fun bodyDer => (Z.compress bodyDer).outcome⟩

variable {Z}

/-- The ceiling and the declared size, compared as doubles, compare as numbers. -/
theorem exceeds_iff (hmax : IsSafeInteger Z.maxOutput) {data : Octets} :
    (∃ r, declaredContentSize data = some r ∧ Z.maxOutput < r) ↔
      ∃ n, Declares data n ∧ Z.maxOutput < n := by
  simp only [declaredContentSize_eq_some]
  constructor
  · rintro ⟨_, ⟨n, hn, rfl⟩, hlt⟩
    exact ⟨n, hn, (lt_toNumber hmax n).1 hlt⟩
  · rintro ⟨n, hn, hlt⟩
    exact ⟨toNumber n, ⟨n, hn, rfl⟩, (lt_toNumber hmax n).2 hlt⟩

theorem callDecompress_calls (data : Octets) : (Z.callDecompress data).calls ≠ [] := by
  unfold callDecompress
  split <;> simp

/-- The library is not called for another algorithm, nor for a size past the ceiling. -/
theorem decompress_cases (compressed : CompressedBody) :
    (compressed.algorithmOid ≠ zstdOid ∧ ∃ issues,
      Z.decompress compressed = ⟨[], .error (.validation "ALGORITHM_MISMATCH" issues)⟩) ∨
    (compressed.algorithmOid = zstdOid ∧
      ∃ r, declaredContentSize compressed.data = some r ∧ Z.maxOutput < r ∧
        Z.decompress compressed = ⟨[], .error (Z.outputLimitExceeded r)⟩) ∨
    (compressed.algorithmOid = zstdOid ∧
      (¬ ∃ r, declaredContentSize compressed.data = some r ∧ Z.maxOutput < r) ∧
        Z.decompress compressed = Z.callDecompress compressed.data) := by
  unfold decompress requireZstd
  by_cases hoid : compressed.algorithmOid = zstdOid
  · rw [if_neg (not_not.2 hoid)]
    cases hread : declaredContentSize compressed.data with
    | none => exact .inr (.inr ⟨hoid, by simp, rfl⟩)
    | some r =>
      by_cases hlt : Z.maxOutput < r
      · exact .inr (.inl ⟨hoid, r, rfl, hlt, if_pos hlt⟩)
      · refine .inr (.inr ⟨hoid, ?_, if_neg hlt⟩)
        rintro ⟨_, heq, hlt'⟩
        obtain rfl := Option.some.inj heq
        exact hlt hlt'
  · rw [if_pos hoid]
    exact .inl ⟨hoid, _, rfl⟩

end ZstdCompression

/-- A run that throws a validation error before any call. -/
def ZstdRun.RefusesWith {α : Type} (run : ZstdRun α) (code : String) : Prop :=
  run.calls = [] ∧ ∃ issues, run.outcome = .error (.validation code issues)

/-- What the library promises of its buffer: it has the size the first frame declares, or else the
size asked for, and nothing is written past it. -/
def ZstdModule.StaysInBuffer (zstd : ZstdModule) : Prop :=
  ∀ data defaultHeapSize out, zstd.decompress data defaultHeapSize = .ok out →
    (∀ n, Declares data n → out.length ≤ n) ∧
      ((¬ ∃ n, Declares data n) → (out.length : ℤ) ≤ defaultHeapSize)

namespace ZstdCompression

variable {Z : ZstdCompression}

/-- The ceiling refuses what declares more, and nothing else. -/
theorem refuses_iff (hmax : IsSafeInteger Z.maxOutput) (compressed : CompressedBody) :
    (Z.decompress compressed).RefusesWith "OUTPUT_LIMIT_EXCEEDED" ↔
      compressed.algorithmOid = zstdOid ∧ ∃ n, Declares compressed.data n ∧ Z.maxOutput < n := by
  rw [← exceeds_iff hmax]
  rcases Z.decompress_cases compressed with
    ⟨hoid, issues, hrun⟩ | ⟨hoid, r, hread, hlt, hrun⟩ | ⟨hoid, hfits, hrun⟩
  · rw [hrun]
    constructor
    · rintro ⟨-, _, hcode⟩
      simp at hcode
    · rintro ⟨heq, -⟩
      exact absurd heq hoid
  · rw [hrun]
    exact ⟨fun _ => ⟨hoid, r, hread, hlt⟩, fun _ => ⟨rfl, _, rfl⟩⟩
  · rw [hrun]
    constructor
    · rintro ⟨hcalls, -⟩
      exact absurd hcalls (callDecompress_calls _)
    · rintro ⟨-, hover⟩
      exact absurd hover hfits

/-- What comes out fits the ceiling. -/
theorem length_le_maxOutput (hmax : IsSafeInteger Z.maxOutput)
    (hlibrary : ∀ zstd, Z.zstdModule = .ok zstd → zstd.StaysInBuffer) {compressed : CompressedBody}
    {out : Octets} (hout : (Z.decompress compressed).outcome = .ok out) :
    (out.length : ℤ) ≤ Z.maxOutput := by
  rcases Z.decompress_cases compressed with
    ⟨-, issues, hrun⟩ | ⟨-, r, -, -, hrun⟩ | ⟨-, hfits, hrun⟩
  · rw [hrun] at hout
    cases hout
  · rw [hrun] at hout
    cases hout
  · rw [hrun, callDecompress] at hout
    cases hload : Z.zstdModule with
    | error fault =>
      rw [hload] at hout
      cases hout
    | ok zstd =>
      rw [hload] at hout
      obtain ⟨hsized, hunsized⟩ := hlibrary zstd hload _ _ _ hout
      by_cases hdeclares : ∃ n, Declares compressed.data n
      · obtain ⟨n, hn⟩ := hdeclares
        have hle : (n : ℤ) ≤ Z.maxOutput := by
          by_contra hlt
          exact hfits ((exceeds_iff hmax).2 ⟨n, hn, not_le.1 hlt⟩)
        have := hsized n hn
        omega
      · exact hunsized hdeclares

/-- A carried body inflates to no more than the ceiling. -/
theorem inflate_length_le (hmax : IsSafeInteger Z.maxOutput)
    (hlibrary : ∀ zstd, Z.zstdModule = .ok zstd → zstd.StaysInBuffer) {plaintext body : Octets}
    {compactness : CompactnessInfo}
    (hbody : inflate plaintext (some compactness) (some Z.inflator) = .ok body) :
    (body.length : ℤ) ≤ Z.maxOutput :=
  @length_le_maxOutput Z hmax hlibrary (compactness.body plaintext) body hbody

/-- What is compressed is accepted for decompression. -/
theorem requireZstd_of_compress {bodyDer : Octets} {compressed : CompressedBody}
    (hcompress : Z.compressor.compress bodyDer = .ok compressed) :
    requireZstd compressed = .ok () := by
  have hcompressed : (Z.compress bodyDer).outcome = .ok compressed := hcompress
  unfold compress at hcompressed
  cases hload : Z.zstdModule with
  | error fault =>
    rw [hload] at hcompressed
    cases hcompressed
  | ok zstd =>
    rw [hload] at hcompressed
    cases hdata : zstd.compress bodyDer with
    | error fault =>
      simp only [hdata, Except.map] at hcompressed
      cases hcompressed
    | ok data =>
      simp only [hdata, Except.map] at hcompressed
      cases hcompressed
      exact if_neg (not_not.2 rfl)

end ZstdCompression

/-- **No output is larger than the ceiling.**  The reader gives no size just where the header
declares none, and otherwise the double nearest to the declared size; a frame that declares more
than the ceiling, and no other, is refused before the library is called; and what comes out fits
the ceiling. -/
theorem zstd_output_ceiling (Z : ZstdCompression) (hmax : IsSafeInteger Z.maxOutput) :
    (∀ data, declaredContentSize data = none ↔
      ¬ OpensFrame data ∨ TruncatedHeader data ∨ DeclaresNone data) ∧
    (∀ data r, declaredContentSize data = some r ↔ ∃ n, Declares data n ∧ toNumber n = r) ∧
    (∀ (h : FrameHeader) n, h.contentSize = some n →
      IsDouble (toNumber n) ∧ (∀ x, IsDouble x → |(n : ℚ) - toNumber n| ≤ |(n : ℚ) - x|) ∧
        (h.frameContentSize.length ≠ 8 → toNumber n = n)) ∧
    (∀ compressed, (Z.decompress compressed).RefusesWith "OUTPUT_LIMIT_EXCEEDED" ↔
      compressed.algorithmOid = zstdOid ∧ ∃ n, Declares compressed.data n ∧ Z.maxOutput < n) ∧
    ((∀ zstd, Z.zstdModule = .ok zstd → zstd.StaysInBuffer) →
      ∀ compressed out, (Z.decompress compressed).outcome = .ok out →
        (out.length : ℤ) ≤ Z.maxOutput) := by
  refine ⟨fun _ => declaredContentSize_eq_none, fun _ _ => declaredContentSize_eq_some, ?_,
    fun compressed => Z.refuses_iff hmax compressed,
    fun hlibrary _ _ hout => Z.length_le_maxOutput hmax hlibrary hout⟩
  intro h n hsize
  obtain ⟨-, hexact, hlt⟩ := declaredContentSize_header (List.prefix_rfl) hsize
  exact ⟨isDouble_toNumber hlt, fun x hx => toNumber_nearest n hx, hexact⟩

namespace Small

/-- A frame that declares one octet, in one raw block. -/
def oneOctetFrame : Octets := [0x28, 0xB5, 0x2F, 0xFD, 0x20, 0x01, 0x09, 0x00, 0x00, 0x2A]

/-- A library that opens this frame only. -/
def oneOctetModule : ZstdModule where
  compress data := if data = [0x2A] then .ok oneOctetFrame else .error (.error "too long")
  decompress data _ :=
    if data = oneOctetFrame then .ok [0x2A] else .error (.error "corrupted")

theorem oneOctetModule_staysInBuffer : oneOctetModule.StaysInBuffer := by
  intro data heap out hout
  have hdata : data = oneOctetFrame ∧ out = [0x2A] := by
    by_cases h : data = oneOctetFrame
    · simp only [oneOctetModule, h, if_true, Except.ok.injEq] at hout
      exact ⟨h, hout.symm⟩
    · simp [oneOctetModule, h] at hout
  obtain ⟨rfl, rfl⟩ := hdata
  have hread : declaredContentSize oneOctetFrame = some 1 := by decide
  constructor
  · rintro n ⟨h, hbegins, hsize⟩
    have hone := (declaredContentSize_header hbegins hsize).1.symm.trans hread
    have hpos := (lt_toNumber (m := 0) (by decide) n).1 (by rw [Option.some.inj hone]; decide)
    simp only [List.length_singleton]
    omega
  · intro hnone
    obtain ⟨n, hn, -⟩ := declaredContentSize_eq_some.1 hread
    exact absurd ⟨n, hn⟩ hnone

/-- The frame is opened under a ceiling of 64 octets, and refused under one of none. -/
theorem one_octet_fits :
    ((ZstdCompression.mk (.ok oneOctetModule) 64).decompress
      ⟨zstdOid, none, none, oneOctetFrame⟩).outcome = .ok [0x2A] ∧
    (([0x2A] : Octets).length : ℤ) ≤ 64 ∧
    ((ZstdCompression.mk (.ok oneOctetModule) 0).decompress
      ⟨zstdOid, none, none, oneOctetFrame⟩).RefusesWith "OUTPUT_LIMIT_EXCEEDED" := by
  have hmodule : ∀ zstd, (Except.ok oneOctetModule : Except Fault ZstdModule) = .ok zstd →
      zstd.StaysInBuffer := by
    rintro _ ⟨⟩
    exact oneOctetModule_staysInBuffer
  have hopened : ((ZstdCompression.mk (.ok oneOctetModule) 64).decompress
      ⟨zstdOid, none, none, oneOctetFrame⟩).outcome = .ok [0x2A] := by decide
  have hread : declaredContentSize oneOctetFrame = some 1 := by decide
  obtain ⟨-, hsome, -, -, hfits⟩ :=
    zstd_output_ceiling ⟨.ok oneOctetModule, 64⟩ (by decide)
  obtain ⟨-, -, -, hrefuses, -⟩ := zstd_output_ceiling ⟨.ok oneOctetModule, 0⟩ (by decide)
  refine ⟨hopened, hfits hmodule _ _ hopened, (hrefuses _).2 ⟨rfl, ?_⟩⟩
  obtain ⟨n, hn, hnumber⟩ := (hsome _ _).1 hread
  exact ⟨n, hn, (lt_toNumber (by decide) n).1 (by rw [hnumber]; decide)⟩

end Small

end Ws
end TightbeamExt
