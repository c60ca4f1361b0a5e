import Mathlib.Data.Nat.Digits.Lemmas
import TightbeamExt.Base.Tlv

/-!
# Elements with definite lengths

An element is a tag octet, the length of its value, and the value.  A length below 128 is one
octet; a longer one is the count of its octets and then the octets, as few as possible, the most
significant one first.  A writer announces the length of a value before it writes the value, and
computes it on its own from the lengths of the parts; a reader takes the length at its word.

## Main definitions

* `Limit` — the largest length there is.
* `element`, `readElement`, `codec` — one element, written and read.
* `EncodeValue` — a value that can announce its length and write itself; `octetString`, `explicit`
  and `sequence` build such values.
* `EncodeValue.Encodes` — it announces what it writes.

## Main results

* `codec_lawful` — elements are read back as they were written.
* `EncodeValue.Encodes.toDer` — **a value that announces what it writes is encoded as an element.**
-/

namespace TightbeamExt
namespace Der

/-- What writing and reading fail with. -/
inductive Fault
  /-- A length past the limit. -/
  | overflow
  /-- The octets end early. -/
  | incomplete
  /-- More octets than announced, or a length in more octets than it needs. -/
  | overlength
  /-- Another tag was expected. -/
  | tagUnexpected
  /-- Octets are left over. -/
  | trailingData
  /-- The value is none of its type. -/
  | value
  deriving DecidableEq, Repr

/-- The largest length; its octets can be counted in seven bits. -/
structure Limit where
  /-- The length. -/
  max : ℕ
  /-- It is below `256 ^ 127`. -/
  max_lt : max < 256 ^ 127

/-! ### Lengths -/

/-- The number that octets stand for, the most significant one first. -/
def ofBigEndian (octets : List UInt8) : ℕ := Nat.ofDigits 256 (octets.reverse.map UInt8.toNat)

/-- The octets of a number, the most significant one first, as few as possible. -/
def bigEndian (n : ℕ) : List UInt8 := ((Nat.digits 256 n).map UInt8.ofNat).reverse

theorem ofBigEndian_bigEndian (n : ℕ) : ofBigEndian (bigEndian n) = n := by
  have hdigits : ((Nat.digits 256 n).map UInt8.ofNat).map UInt8.toNat = Nat.digits 256 n := by
    rw [List.map_map]
    conv_rhs => rw [← List.map_id (Nat.digits 256 n)]
    apply List.map_congr_left
    intro digit hdigit
    exact UInt8.toNat_ofNat_of_lt' (Nat.digits_lt_base (by decide) hdigit)
  rw [ofBigEndian, bigEndian, List.reverse_reverse, hdigits, Nat.ofDigits_digits]

/-- The octets of a length. -/
def lengthOctets (n : ℕ) : List UInt8 :=
  if n < 128 then [UInt8.ofNat n] else UInt8.ofNat (128 + (bigEndian n).length) :: bigEndian n

/-- How many octets a length takes. -/
def lengthSize (n : ℕ) : ℕ := if n < 128 then 1 else Nat.log 256 n + 2

/-- The size of a length is the number of its octets. -/
theorem length_lengthOctets (n : ℕ) : (lengthOctets n).length = lengthSize n := by
  unfold lengthOctets lengthSize
  split
  · rfl
  · next h =>
    rw [List.length_cons, bigEndian, List.length_reverse, List.length_map,
      Nat.length_digits 256 n (by decide) (by omega)]

/-- Read a length. -/
def readLength : List UInt8 → Except Fault (ℕ × List UInt8)
  | [] => .error .incomplete
  | first :: rest =>
      if first.toNat < 128 then .ok (first.toNat, rest)
      else if rest.length < first.toNat - 128 then .error .incomplete
      else
        let octets := rest.take (first.toNat - 128)
        if lengthOctets (ofBigEndian octets) = first :: octets then
          .ok (ofBigEndian octets, rest.drop (first.toNat - 128))
        else .error .overlength

theorem readLength_lengthOctets {n : ℕ} (h : n < 256 ^ 127) (rest : List UInt8) :
    readLength (lengthOctets n ++ rest) = .ok (n, rest) := by
  by_cases hshort : n < 128
  · -- a short length is its own octet
    simp [lengthOctets, hshort, readLength, UInt8.toNat_ofNat_of_lt' (show n < 256 by omega)]
  · -- the first octet of a long length counts the others
    have hcount : (bigEndian n).length ≤ 127 := by
      rw [bigEndian, List.length_reverse, List.length_map]
      exact (Nat.digits_length_le_iff (by decide) n).2 h
    have hfirst := UInt8.toNat_ofNat_of_lt' (show 128 + (bigEndian n).length < 256 by omega)
    have hn : lengthOctets n = UInt8.ofNat (128 + (bigEndian n).length) :: bigEndian n := by
      rw [lengthOctets, if_neg hshort]
    rw [hn, List.cons_append]
    unfold readLength
    dsimp only
    rw [hfirst, if_neg (by omega), Nat.add_sub_cancel_left, List.take_left, List.drop_left,
      if_neg (by rw [List.length_append]; omega), ofBigEndian_bigEndian, if_pos hn]

theorem readLength_eq {s rest : List UInt8} {n : ℕ} (h : readLength s = .ok (n, rest)) :
    s = lengthOctets n ++ rest := by
  cases s with
  | nil => cases h
  | cons first s =>
    unfold readLength at h
    dsimp only at h
    split at h
    · next hshort =>
      cases h
      rw [lengthOctets, if_pos hshort, UInt8.ofNat_toNat]
      rfl
    · split at h
      · cases h
      · split at h
        · next hcanonical =>
          obtain ⟨rfl, rfl⟩ := Prod.mk.inj (Except.ok.inj h)
          rw [hcanonical, List.cons_append, List.take_append_drop]
        · cases h

/-! ### Elements -/

/-- An element. -/
structure Element where
  /-- The tag octet. -/
  tag : UInt8
  /-- The value. -/
  value : List UInt8
  deriving DecidableEq, Repr

/-- An element, written. -/
def element (tag : UInt8) (value : List UInt8) : List UInt8 :=
  tag :: lengthOctets value.length ++ value

theorem length_element (tag : UInt8) (value : List UInt8) :
    (element tag value).length = 1 + lengthSize value.length + value.length := by
  rw [element, List.length_append, List.length_cons, length_lengthOctets]
  omega

/-- Read an element. -/
def readElement (limit : Limit) : List UInt8 → Except Fault (Element × List UInt8)
  | [] => .error .incomplete
  | tag :: s => do
      let (n, rest) ← readLength s
      if limit.max < n then .error .overflow
      else if rest.length < n then .error .incomplete
      else .ok (⟨tag, rest.take n⟩, rest.drop n)

theorem readElement_element {limit : Limit} {value : List UInt8} (h : value.length ≤ limit.max)
    (tag : UInt8) (rest : List UInt8) :
    readElement limit (element tag value ++ rest) = .ok (⟨tag, value⟩, rest) := by
  have hread := readLength_lengthOctets (h.trans_lt limit.max_lt) (value ++ rest)
  rw [element, List.append_assoc, List.cons_append]
  unfold readElement
  dsimp only
  rw [bind_eq_of_ok hread]
  dsimp only
  rw [if_neg (by omega), if_neg (by rw [List.length_append]; omega), List.take_left, List.drop_left]

theorem readElement_eq {limit : Limit} {s rest : List UInt8} {e : Element}
    (h : readElement limit s = .ok (e, rest)) :
    s = element e.tag e.value ++ rest ∧ e.value.length ≤ limit.max := by
  cases s with
  | nil => cases h
  | cons tag s =>
    obtain ⟨⟨n, after⟩, hlength, h⟩ := bind_ok h
    dsimp only at h
    split at h
    · cases h
    · next hmax =>
      split at h
      · cases h
      · next hlong =>
        cases h
        have htake : (after.take n).length = n := by
          rw [List.length_take]
          omega
        dsimp only
        refine ⟨?_, by omega⟩
        rw [element, htake, readLength_eq hlength, List.append_assoc, List.cons_append,
          List.take_append_drop]

/-- Elements, written and read. -/
def codec (limit : Limit) : Tlv.Codec Fault UInt8 Element where
  write e :=
    if e.value.length ≤ limit.max then .ok (element e.tag e.value) else .error .overflow
  read := readElement limit
  read_lt := by
    intro s e rest h
    rw [(readElement_eq h).1, List.length_append, length_element]
    omega

/-- **Elements are read back as they were written.** -/
theorem codec_lawful (limit : Limit) : (codec limit).Lawful where
  read_write := by
    intro e s rest h
    dsimp only [codec] at h ⊢
    split at h
    · next hle =>
      cases h
      exact readElement_element hle e.tag rest
    · cases h
  write_read := by
    intro e s rest h
    obtain ⟨hs, hle⟩ := readElement_eq h
    exact ⟨_, if_pos hle, hs⟩

/-- Read one element and nothing after it. -/
def fromDer (limit : Limit) (s : List UInt8) : Except Fault Element := do
  let (e, rest) ← readElement limit s
  if rest.isEmpty then .ok e else .error .trailingData

theorem fromDer_eq_ok {limit : Limit} {s : List UInt8} {e : Element} :
    fromDer limit s = .ok e ↔ s = element e.tag e.value ∧ e.value.length ≤ limit.max := by
  constructor
  · intro h
    obtain ⟨⟨e', rest⟩, hread, h⟩ := bind_ok h
    dsimp only at h
    split at h
    · next hempty =>
      cases h
      obtain ⟨hs, hle⟩ := readElement_eq hread
      rw [List.isEmpty_iff.1 hempty, List.append_nil] at hs
      exact ⟨hs, hle⟩
    · cases h
  · rintro ⟨rfl, hle⟩
    have hread := readElement_element hle e.tag []
    rw [List.append_nil] at hread
    exact (bind_eq_of_ok hread).trans rfl

theorem fromDer_element {limit : Limit} {value : List UInt8} (h : value.length ≤ limit.max)
    (tag : UInt8) : fromDer limit (element tag value) = .ok ⟨tag, value⟩ :=
  fromDer_eq_ok.2 ⟨rfl, h⟩

/-! ### Values that write themselves -/

/-- The sum of two lengths. -/
def addLength (limit : Limit) (a b : ℕ) : Except Fault ℕ :=
  if a + b ≤ limit.max then .ok (a + b) else .error .overflow

/-- `EncodeValue`: a value of a type with a fixed tag. -/
structure EncodeValue where
  /-- The tag. -/
  tag : UInt8
  /-- How long the value says it is. -/
  valueLen : Except Fault ℕ
  /-- The octets it writes. -/
  encodeValue : Except Fault (List UInt8)

namespace EncodeValue

variable (limit : Limit) (x : EncodeValue)

/-- How long the element is: the tag, the length, and the value. -/
def encodedLen : Except Fault ℕ := do
  let n ← x.valueLen
  addLength limit (← addLength limit 1 (lengthSize n)) n

/-- Write the element: the header for the announced length, then the value. -/
def encode : Except Fault (List UInt8) := do
  let n ← x.valueLen
  .ok (x.tag :: lengthOctets n ++ (← x.encodeValue))

/-- The element alone, in the room it announced. -/
def toDer : Except Fault (List UInt8) := do
  let expected ← x.encodedLen limit
  let der ← x.encode
  if expected < der.length then .error .overlength
  else if der.length < expected then .error .incomplete
  else .ok der

/-- Octets under a tag, where they fit. -/
def octets (tag : UInt8) (value : List UInt8) : Except Fault EncodeValue :=
  if value.length ≤ limit.max then .ok ⟨tag, .ok value.length, .ok value⟩ else .error .overflow

/-- A value under a context-specific tag of its own. -/
def explicit (number : UInt8) : EncodeValue where
  tag := 0xA0 + number
  valueLen := x.encodedLen limit
  encodeValue := x.encode

/-- It announces what it writes, as long as that fits. -/
structure Encodes (value : List UInt8) : Prop where
  /-- What fits is announced and written. -/
  fits : value.length ≤ limit.max → x.valueLen = .ok value.length ∧ x.encodeValue = .ok value
  /-- Nothing else is announced. -/
  announced : ∀ {n}, x.valueLen = .ok n → n = value.length ∧ value.length ≤ limit.max

variable {limit} {x}

theorem addLength_eq_ok {a b n : ℕ} :
    addLength limit a b = .ok n ↔ n = a + b ∧ a + b ≤ limit.max := by
  unfold addLength
  split
  · next h => exact ⟨fun hn => ⟨(Except.ok.inj hn).symm, h⟩, fun hn => by rw [hn.1]⟩
  · next h => exact ⟨fun hn => (by cases hn), fun hn => absurd hn.2 h⟩

namespace Encodes

variable {value : List UInt8}

/-- The length of the element, where it fits. -/
theorem encodedLen_eq_ok (h : x.Encodes limit value) {n : ℕ} :
    x.encodedLen limit = .ok n ↔
      n = (element x.tag value).length ∧ (element x.tag value).length ≤ limit.max := by
  rw [length_element]
  constructor
  · intro hn
    obtain ⟨k, hk, hn⟩ := bind_ok hn
    obtain ⟨header, hheader, hn⟩ := bind_ok hn
    obtain ⟨rfl, -⟩ := h.announced hk
    obtain ⟨rfl, -⟩ := addLength_eq_ok.1 hheader
    exact addLength_eq_ok.1 hn
  · rintro ⟨rfl, hfits⟩
    rw [EncodeValue.encodedLen, bind_eq_of_ok (h.fits (by omega)).1,
      bind_eq_of_ok (addLength_eq_ok.2 ⟨rfl, by omega⟩)]
    exact addLength_eq_ok.2 ⟨rfl, hfits⟩

theorem encode (h : x.Encodes limit value) (hfits : value.length ≤ limit.max) :
    x.encode = .ok (element x.tag value) := by
  obtain ⟨hlen, hvalue⟩ := h.fits hfits
  rw [EncodeValue.encode, bind_eq_of_ok hlen, bind_eq_of_ok hvalue]
  rfl

/-- What is announced is what is written. -/
theorem encodeValue (h : x.Encodes limit value) {n : ℕ} (hn : x.valueLen = .ok n) :
    x.encodeValue = .ok value ∧ n = value.length := by
  obtain ⟨rfl, hfits⟩ := h.announced hn
  exact ⟨(h.fits hfits).2, rfl⟩

/-- **A value that announces what it writes is encoded as an element**, where that fits. -/
theorem toDer_eq_ok (h : x.Encodes limit value) {der : List UInt8} :
    x.toDer limit = .ok der ↔
      der = element x.tag value ∧ (element x.tag value).length ≤ limit.max := by
  have hvalue (hfits : (element x.tag value).length ≤ limit.max) : value.length ≤ limit.max := by
    rw [length_element] at hfits
    omega
  constructor
  · intro hder
    obtain ⟨n, hn, hder⟩ := bind_ok hder
    obtain ⟨rfl, hfits⟩ := h.encodedLen_eq_ok.1 hn
    rw [bind_eq_of_ok (h.encode (hvalue hfits)), if_neg (lt_irrefl _), if_neg (lt_irrefl _)] at hder
    exact ⟨(Except.ok.inj hder).symm, hfits⟩
  · rintro ⟨rfl, hfits⟩
    rw [EncodeValue.toDer, bind_eq_of_ok (h.encodedLen_eq_ok.2 ⟨rfl, hfits⟩),
      bind_eq_of_ok (h.encode (hvalue hfits)), if_neg (lt_irrefl _), if_neg (lt_irrefl _)]

/-- A value under a tag of its own announces its element. -/
theorem explicit (h : x.Encodes limit value) (number : UInt8) :
    (x.explicit limit number).Encodes limit (element x.tag value) where
  fits hfits := by
    refine ⟨h.encodedLen_eq_ok.2 ⟨rfl, hfits⟩, h.encode ?_⟩
    rw [length_element] at hfits
    omega
  announced := h.encodedLen_eq_ok.1

end Encodes

/-- Octets announce themselves, where they fit. -/
theorem octets_eq_ok {tag : UInt8} {value : List UInt8} :
    octets limit tag value = .ok x ↔
      x = ⟨tag, .ok value.length, .ok value⟩ ∧ value.length ≤ limit.max := by
  unfold octets
  split
  · next h => exact ⟨fun hx => ⟨(Except.ok.inj hx).symm, h⟩, fun hx => by rw [hx.1]⟩
  · next h => exact ⟨fun hx => (by cases hx), fun hx => absurd hx.2 h⟩

theorem octets_encodes {tag : UInt8} {value : List UInt8} (h : value.length ≤ limit.max) :
    (EncodeValue.mk tag (.ok value.length) (.ok value)).Encodes limit value where
  fits _ := ⟨rfl, rfl⟩
  announced hn := ⟨(Except.ok.inj hn).symm, h⟩

end EncodeValue

end Der
end TightbeamExt
