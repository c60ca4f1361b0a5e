import Mathlib.Data.List.Basic
import Mathlib.Data.List.Infix
import Mathlib.Tactic.Common

/-!
# Strings of UTF-16 code units and their octets

A JavaScript string is any list of 16-bit code units.  The WHATWG text encoder first reads
it as scalar values, with U+FFFD for every surrogate that is not part of a pair, and then
writes UTF-8; the text decoder reads UTF-8 with U+FFFD for every ill-formed part, drops one
byte order mark in front, and writes code units.

## Main definitions

* `scalars`, `utf16` — code units to scalar values and back.
* `wellFormed` — `String.prototype.isWellFormed`: no surrogate stands alone.
* `TextEncoder.encode`, `TextDecoder.decode` — the two codecs with their default options.

## Main results

* `utf16_scalars_iff` — **reading and writing gives back the string exactly when it is well
  formed**.
* `decode_utf8` — the decoder on the octets of a text.
-/

namespace Text

/-! ### Code units -/

/-- The first half of a surrogate pair. -/
def isHigh (u : UInt16) : Bool := 0xD800 ≤ u.toNat && u.toNat ≤ 0xDBFF

/-- The second half. -/
def isLow (u : UInt16) : Bool := 0xDC00 ≤ u.toNat && u.toNat ≤ 0xDFFF

/-- U+FFFD. -/
def replacement : Char := '\uFFFD'

/-- U+FEFF. -/
def byteOrderMark : Char := '\uFEFF'

/-- The scalar value of a surrogate pair. -/
def pair (u v : UInt16) : Char :=
  Char.ofNat (0x10000 + (u.toNat - 0xD800) * 0x400 + (v.toNat - 0xDC00))

/-- The scalar value of a code unit that is not part of a pair. -/
def single (u : UInt16) : Char :=
  if isHigh u || isLow u then replacement else Char.ofNat u.toNat

/-- A string as scalar values. -/
def scalars : List UInt16 → List Char
  | u :: v :: rest =>
      if isHigh u && isLow v then pair u v :: scalars rest else single u :: scalars (v :: rest)
  | [u] => [single u]
  | [] => []

/-- The code units of a scalar value. -/
def units (c : Char) : List UInt16 :=
  if c.toNat < 0x10000 then [UInt16.ofNat c.toNat]
  else [UInt16.ofNat (0xD800 + (c.toNat - 0x10000) / 0x400),
    UInt16.ofNat (0xDC00 + (c.toNat - 0x10000) % 0x400)]

/-- The code units of a text. -/
def utf16 (text : List Char) : List UInt16 := text.flatMap units

/-- Every surrogate is part of a pair. -/
def wellFormed : List UInt16 → Bool
  | u :: v :: rest =>
      if isHigh u && isLow v then wellFormed rest
      else !(isHigh u || isLow u) && wellFormed (v :: rest)
  | [u] => !(isHigh u || isLow u)
  | [] => true

@[simp] theorem utf16_nil : utf16 [] = [] := rfl

@[simp] theorem utf16_cons (c : Char) (text : List Char) :
    utf16 (c :: text) = units c ++ utf16 text := rfl

theorem utf16_append (a b : List Char) : utf16 (a ++ b) = utf16 a ++ utf16 b := by
  simp [utf16]

/-! ### One scalar value -/

theorem toNat_ofNat_of_valid {n : ℕ} (h : n.isValidChar) : (Char.ofNat n).toNat = n := by
  rw [Char.ofNat, dif_pos h]
  rfl

theorem isHigh_iff {u : UInt16} : isHigh u = true ↔ 0xD800 ≤ u.toNat ∧ u.toNat ≤ 0xDBFF := by
  simp [isHigh]

theorem isLow_iff {u : UInt16} : isLow u = true ↔ 0xDC00 ≤ u.toNat ∧ u.toNat ≤ 0xDFFF := by
  simp [isLow]

theorem toNat_pair {u v : UInt16} (hu : isHigh u = true) (hv : isLow v = true) :
    (pair u v).toNat = 0x10000 + (u.toNat - 0xD800) * 0x400 + (v.toNat - 0xDC00) := by
  rw [isHigh_iff] at hu
  rw [isLow_iff] at hv
  refine toNat_ofNat_of_valid (Or.inr ?_)
  omega

theorem ofNat_eq_of_toNat {u : UInt16} {n : ℕ} (h : n = u.toNat) : UInt16.ofNat n = u := by
  rw [h]
  exact UInt16.ofNat_toNat

/-- A pair writes as its two halves. -/
theorem units_pair {u v : UInt16} (hu : isHigh u = true) (hv : isLow v = true) :
    units (pair u v) = [u, v] := by
  have hn := toNat_pair hu hv
  rw [isHigh_iff] at hu
  rw [isLow_iff] at hv
  unfold units
  rw [if_neg (by omega), hn]
  have hfirst : UInt16.ofNat (0xD800 + (0x10000 + (u.toNat - 0xD800) * 0x400 +
      (v.toNat - 0xDC00) - 0x10000) / 0x400) = u := ofNat_eq_of_toNat (by omega)
  have hsecond : UInt16.ofNat (0xDC00 + (0x10000 + (u.toNat - 0xD800) * 0x400 +
      (v.toNat - 0xDC00) - 0x10000) % 0x400) = v := ofNat_eq_of_toNat (by omega)
  rw [hfirst, hsecond]

/-- A code unit that is no surrogate writes as itself, a lone surrogate does not. -/
theorem units_single (u : UInt16) :
    units (single u) = [if isHigh u || isLow u then 0xFFFD else u] := by
  unfold single
  split
  · rfl
  · next h =>
    rw [Bool.or_eq_true, isHigh_iff, isLow_iff] at h
    have hlt := u.toNat_lt
    have hn : (Char.ofNat u.toNat).toNat = u.toNat := toNat_ofNat_of_valid (by
      by_cases hb : u.toNat < 0xD800
      · exact Or.inl hb
      · exact Or.inr (by omega))
    unfold units
    rw [hn, if_pos (by omega), UInt16.ofNat_toNat]

theorem single_ne_of_lone {u : UInt16} (h : (isHigh u || isLow u) = true) : (0xFFFD : UInt16) ≠ u := by
  rintro rfl
  exact absurd h (by decide)

/-! ### Reading and writing -/

theorem scalars_pair {u v : UInt16} (rest : List UInt16) (h : (isHigh u && isLow v) = true) :
    scalars (u :: v :: rest) = pair u v :: scalars rest := by
  rw [scalars, if_pos h]

theorem scalars_single {u v : UInt16} (rest : List UInt16) (h : ¬ (isHigh u && isLow v) = true) :
    scalars (u :: v :: rest) = single u :: scalars (v :: rest) := by
  rw [scalars, if_neg h]

/-- Reading keeps the length, with a code unit for every lone surrogate. -/
theorem length_utf16_scalars (s : List UInt16) : (utf16 (scalars s)).length = s.length := by
  induction s using scalars.induct with
  | case1 u v rest h ih =>
    have hpair := Bool.and_eq_true_iff.mp h
    rw [scalars_pair rest h, utf16_cons, units_pair hpair.1 hpair.2, List.length_append, ih]
    simp only [List.length_cons, List.length_nil]
    omega
  | case2 u v rest h ih =>
    rw [scalars_single rest h, utf16_cons, units_single, List.length_append, ih]
    simp only [List.length_cons, List.length_nil]
    omega
  | case3 u => simp [scalars, units_single]
  | case4 => rfl

/-- **Reading and writing gives back the string exactly when it is well formed.** -/
theorem utf16_scalars_iff (s : List UInt16) : utf16 (scalars s) = s ↔ wellFormed s = true := by
  induction s using scalars.induct with
  | case1 u v rest h ih =>
    have hpair := Bool.and_eq_true_iff.mp h
    rw [scalars_pair rest h, utf16_cons, units_pair hpair.1 hpair.2, wellFormed, if_pos h]
    simpa using ih
  | case2 u v rest h ih =>
    rw [scalars_single rest h, utf16_cons, units_single, wellFormed, if_neg h]
    cases hs : (isHigh u || isLow u) with
    | true => simpa using fun he => absurd he (single_ne_of_lone hs)
    | false => simpa using ih
  | case3 u =>
    simp only [scalars, wellFormed, utf16_cons, utf16_nil, units_single]
    cases hs : (isHigh u || isLow u) with
    | true => simpa using single_ne_of_lone hs
    | false => simp
  | case4 => simp [scalars, wellFormed]

/-- A code unit that is no surrogate is its own scalar value, whatever follows. -/
theorem scalars_cons {u : UInt16} (hhigh : isHigh u = false) (hlow : isLow u = false)
    (s : List UInt16) : scalars (u :: s) = Char.ofNat u.toNat :: scalars s := by
  have hsingle : single u = Char.ofNat u.toNat := by simp [single, hhigh, hlow]
  cases s with
  | nil => simp [scalars, hsingle]
  | cons v rest => rw [scalars_single rest (by simp [hhigh]), hsingle]

/-- The units of a scalar value read back as it, whatever follows. -/
theorem scalars_units_append (c : Char) (s : List UInt16) : scalars (units c ++ s) = c :: scalars s := by
  have hvalid := c.valid
  have hnat : c.val.toNat = c.toNat := rfl
  unfold units
  split
  · next hlt =>
    have hu : (UInt16.ofNat c.toNat).toNat = c.toNat := by
      simp only [UInt16.toNat_ofNat']
      omega
    have hrange : c.toNat < 0xD800 ∨ 0xDFFF < c.toNat := by
      rcases hvalid with h | h
      · exact .inl h
      · exact .inr h.1
    have hhigh : isHigh (UInt16.ofNat c.toNat) = false := by
      rw [Bool.eq_false_iff, ne_eq, isHigh_iff, hu]
      omega
    have hlow : isLow (UInt16.ofNat c.toNat) = false := by
      rw [Bool.eq_false_iff, ne_eq, isLow_iff, hu]
      omega
    rw [List.singleton_append, scalars_cons hhigh hlow, hu, Char.ofNat_toNat]
  · next hge =>
    have hbound : c.toNat < 0x110000 := by
      rcases hvalid with h | h
      · have : c.toNat < 0xD800 := h
        omega
      · exact h.2
    have hfirst : (UInt16.ofNat (0xD800 + (c.toNat - 0x10000) / 0x400)).toNat =
        0xD800 + (c.toNat - 0x10000) / 0x400 := by
      simp only [UInt16.toNat_ofNat']
      omega
    have hsecond : (UInt16.ofNat (0xDC00 + (c.toNat - 0x10000) % 0x400)).toNat =
        0xDC00 + (c.toNat - 0x10000) % 0x400 := by
      simp only [UInt16.toNat_ofNat']
      omega
    have hhigh : isHigh (UInt16.ofNat (0xD800 + (c.toNat - 0x10000) / 0x400)) = true := by
      rw [isHigh_iff, hfirst]
      omega
    have hlow : isLow (UInt16.ofNat (0xDC00 + (c.toNat - 0x10000) % 0x400)) = true := by
      rw [isLow_iff, hsecond]
      omega
    have hpair := toNat_pair hhigh hlow
    rw [hfirst, hsecond] at hpair
    have hchar : pair (UInt16.ofNat (0xD800 + (c.toNat - 0x10000) / 0x400))
        (UInt16.ofNat (0xDC00 + (c.toNat - 0x10000) % 0x400)) = c :=
      Char.toNat_inj.mp (by omega)
    rw [List.cons_append, List.singleton_append, scalars_pair s (by rw [hhigh, hlow]; rfl), hchar]

/-- A text survives as a string. -/
theorem scalars_utf16 (text : List Char) : scalars (utf16 text) = text := by
  induction text with
  | nil => rfl
  | cons c text ih => rw [utf16_cons, scalars_units_append, ih]

/-- The first scalar value of a string, when it is a code unit and replaces none. -/
theorem head_scalars {u : UInt16} {s : List UInt16} {c : Char} {cs : List Char}
    (h : scalars (u :: s) = c :: cs) (hc : c.toNat < 0x10000) (hr : c ≠ replacement) :
    u.toNat = c.toNat ∧ scalars s = cs := by
  have hsingle : single u = c → u.toNat = c.toNat := by
    intro hu
    unfold single at hu
    split at hu
    · exact absurd hu.symm hr
    · next hnot =>
      rw [Bool.or_eq_true, isHigh_iff, isLow_iff] at hnot
      have hlt := u.toNat_lt
      rw [← hu, toNat_ofNat_of_valid]
      by_cases hb : u.toNat < 0xD800
      · exact Or.inl hb
      · exact Or.inr (by omega)
  cases s with
  | nil =>
    rw [scalars, List.cons.injEq] at h
    exact ⟨hsingle h.1, h.2⟩
  | cons v rest =>
    by_cases hp : (isHigh u && isLow v) = true
    · -- a pair lies beyond the basic plane
      rw [scalars_pair rest hp, List.cons.injEq] at h
      have hpair := Bool.and_eq_true_iff.mp hp
      have hn := toNat_pair hpair.1 hpair.2
      rw [h.1] at hn
      omega
    · rw [scalars_single rest hp, List.cons.injEq] at h
      exact ⟨hsingle h.1, h.2⟩

/-- The scalar values below the surrogates. -/
def Low (text : List Char) : Prop := ∀ c ∈ text, c.toNat < 0xD800

instance (text : List Char) : Decidable (Low text) :=
  List.decidableBAll (fun c : Char => c.toNat < 0xD800) text

theorem ne_replacement_of_lt {c : Char} (h : c.toNat < 0xD800) : c ≠ replacement := by
  rintro rfl
  exact absurd h (by decide)

theorem units_of_lt {c : Char} (h : c.toNat < 0xD800) :
    units c = [UInt16.ofNat c.toNat] ∧ (UInt16.ofNat c.toNat).toNat = c.toNat := by
  refine ⟨by rw [units, if_pos (by omega)], ?_⟩
  rw [UInt16.toNat_ofNat']
  exact Nat.mod_eq_of_lt (by omega)

/-- Such a text in front is read as it stands. -/
theorem scalars_utf16_append {p : List Char} (hp : Low p) (s : List UInt16) :
    scalars (utf16 p ++ s) = p ++ scalars s := by
  induction p with
  | nil => rfl
  | cons c p ih =>
    have hc := hp c List.mem_cons_self
    obtain ⟨hu, hn⟩ := units_of_lt hc
    have hhigh : isHigh (UInt16.ofNat c.toNat) = false := by
      rw [← Bool.not_eq_true, isHigh_iff, hn]
      omega
    have hlow : isLow (UInt16.ofNat c.toNat) = false := by
      rw [← Bool.not_eq_true, isLow_iff, hn]
      omega
    rw [utf16_cons, hu, List.append_assoc, List.singleton_append, scalars_cons hhigh hlow, hn,
      Char.ofNat_toNat, ih fun c hc => hp c (List.mem_cons_of_mem _ hc)]
    rfl

/-- And is found in front exactly when its code units are. -/
theorem prefix_scalars_iff {p : List Char} (hp : Low p) (s : List UInt16) :
    p <+: scalars s ↔ utf16 p <+: s := by
  constructor
  · intro h
    induction p generalizing s with
    | nil => exact List.nil_prefix
    | cons c p ih =>
      have hc := hp c List.mem_cons_self
      obtain ⟨hu, hn⟩ := units_of_lt hc
      obtain ⟨rest, hrest⟩ := h
      cases s with
      | nil => cases hrest
      | cons u s =>
        obtain ⟨hhead, htail⟩ := head_scalars hrest.symm (by omega) (ne_replacement_of_lt hc)
        rw [utf16_cons, hu, List.singleton_append, List.cons_prefix_cons]
        refine ⟨ofNat_eq_of_toNat hhead.symm, ?_⟩
        exact ih (fun c hc => hp c (List.mem_cons_of_mem _ hc)) s ⟨rest, htail.symm⟩
  · rintro ⟨rest, rfl⟩
    rw [scalars_utf16_append hp]
    exact ⟨scalars rest, rfl⟩

theorem scalars_eq_nil_iff (s : List UInt16) : scalars s = [] ↔ s = [] := by
  cases s with
  | nil => simp [scalars]
  | cons u s =>
    cases s with
    | nil => simp [scalars]
    | cons v rest =>
      rw [scalars]
      split <;> simp

/-! ### Octets -/

/-- `TextEncoder.encode`. -/
def TextEncoder.encode (s : List UInt16) : List UInt8 := (scalars s).flatMap String.utf8EncodeChar

/-- How many octets in front one replacement character stands for, where no character
decodes: the longest part that a well-formed sequence could begin with, or one octet. -/
def illFormed : List UInt8 → ℕ
  | a :: b :: rest =>
      let lower : UInt8 := if a = 0xE0 then 0xA0 else if a = 0xF0 then 0x90 else 0x80
      let upper : UInt8 := if a = 0xED then 0x9F else if a = 0xF4 then 0x8F else 0xBF
      if 0xE0 ≤ a ∧ a ≤ 0xF4 ∧ lower ≤ b ∧ b ≤ upper then
        match rest with
        | c :: _ => if 0xF0 ≤ a ∧ 0x80 ≤ c ∧ c ≤ 0xBF then 3 else 2
        | [] => 2
      else 1
  | _ => 1

/-- UTF-8 with replacement of ill-formed parts, on at most `fuel` characters. -/
def decodeLossy : ℕ → List UInt8 → List Char
  | 0, _ => []
  | _ + 1, [] => []
  | fuel + 1, octets =>
      match octets.toByteArray.utf8DecodeChar? 0 with
      | some c => c :: decodeLossy fuel (octets.drop c.utf8Size)
      | none => replacement :: decodeLossy fuel (octets.drop (illFormed octets))

/-- One byte order mark in front is skipped. -/
def skipMark : List Char → List Char
  | c :: text => if c = byteOrderMark then text else c :: text
  | [] => []

/-- A string starts with the mark exactly when its first code unit is the mark. -/
theorem skipMark_scalars (s : List UInt16) :
    skipMark (scalars s) = if s.head? = some 0xFEFF then scalars s.tail else scalars s := by
  cases s with
  | nil => rfl
  | cons u s =>
    by_cases hu : u = 0xFEFF
    · subst hu
      have hmark : Char.ofNat (0xFEFF : UInt16).toNat = byteOrderMark := by decide
      rw [scalars_cons (by decide) (by decide), hmark]
      simp [skipMark]
    · rw [if_neg (by simpa using hu)]
      cases hs : scalars (u :: s) with
      | nil => rfl
      | cons c cs =>
        have hc : c ≠ byteOrderMark := by
          rintro rfl
          have hhead := (head_scalars hs (by decide) (by decide)).1
          have hmark : byteOrderMark.toNat = (0xFEFF : UInt16).toNat := by decide
          exact hu (UInt16.toNat_inj.mp (hhead.trans hmark))
        simp [skipMark, hc]

/-- `TextDecoder.decode`. -/
def TextDecoder.decode (octets : List UInt8) : List UInt16 :=
  utf16 (skipMark (decodeLossy octets.length octets))

/-- UTF-8 is decoded from the front. -/
theorem utf8EncodeChar_append_inj {c d : Char} {a b : List UInt8}
    (h : String.utf8EncodeChar c ++ a = String.utf8EncodeChar d ++ b) : c = d ∧ a = b := by
  have hc : ((String.utf8EncodeChar c ++ a).toByteArray).utf8DecodeChar? 0 = some c := by
    rw [List.toByteArray_append]
    exact ByteArray.utf8DecodeChar?_utf8EncodeChar_append
  have hd : ((String.utf8EncodeChar d ++ b).toByteArray).utf8DecodeChar? 0 = some d := by
    rw [List.toByteArray_append]
    exact ByteArray.utf8DecodeChar?_utf8EncodeChar_append
  obtain rfl : c = d := by
    rw [h, hd] at hc
    exact (Option.some.inj hc).symm
  exact ⟨rfl, List.append_cancel_left h⟩

/-- So the octets of a text are in front exactly when the text is. -/
theorem utf8_prefix_iff (p text : List Char) :
    p.flatMap String.utf8EncodeChar <+: text.flatMap String.utf8EncodeChar ↔ p <+: text := by
  constructor
  · intro h
    induction p generalizing text with
    | nil => exact List.nil_prefix
    | cons c p ih =>
      obtain ⟨rest, hrest⟩ := h
      rw [List.flatMap_cons, List.append_assoc] at hrest
      cases text with
      | nil =>
        have hlen := congrArg List.length hrest
        have hpos := Char.utf8Size_pos c
        rw [List.length_append, String.length_utf8EncodeChar] at hlen
        simp only [List.flatMap_nil, List.length_nil] at hlen
        omega
      | cons d text =>
        rw [List.flatMap_cons] at hrest
        obtain ⟨rfl, htail⟩ := utf8EncodeChar_append_inj hrest
        exact List.cons_prefix_cons.mpr ⟨rfl, ih text ⟨rest, htail⟩⟩
  · rintro ⟨rest, rfl⟩
    exact ⟨rest.flatMap String.utf8EncodeChar, by rw [List.flatMap_append]⟩

/-- A text decodes from its octets. -/
theorem decodeLossy_utf8 (text : List Char) {fuel : ℕ}
    (h : (text.flatMap String.utf8EncodeChar).length ≤ fuel) :
    decodeLossy fuel (text.flatMap String.utf8EncodeChar) = text := by
  induction text generalizing fuel with
  | nil => cases fuel <;> rfl
  | cons c text ih =>
    have hpos := Char.utf8Size_pos c
    have hsize : (String.utf8EncodeChar c).length = c.utf8Size := String.length_utf8EncodeChar c
    rw [List.flatMap_cons, List.length_append] at h
    cases fuel with
    | zero => omega
    | succ fuel =>
      have hchar : ((String.utf8EncodeChar c ++ text.flatMap String.utf8EncodeChar).toByteArray
          ).utf8DecodeChar? 0 = some c := by
        rw [List.toByteArray_append]
        exact ByteArray.utf8DecodeChar?_utf8EncodeChar_append
      have hdrop : (String.utf8EncodeChar c ++ text.flatMap String.utf8EncodeChar).drop c.utf8Size =
          text.flatMap String.utf8EncodeChar := by
        rw [← hsize, List.drop_left]
      rw [List.flatMap_cons]
      generalize hl : String.utf8EncodeChar c ++ text.flatMap String.utf8EncodeChar = octets at *
      cases octets with
      | nil =>
        have hlen := congrArg List.length hl
        rw [List.length_append, List.length_nil] at hlen
        omega
      | cons b octets =>
        rw [decodeLossy, hchar]
        · simp only [hdrop]
          rw [ih (by omega)]
        · simp

/-- **The decoder on the octets of a text.** -/
theorem decode_utf8 (text : List Char) :
    TextDecoder.decode (text.flatMap String.utf8EncodeChar) = utf16 (skipMark text) := by
  rw [TextDecoder.decode, decodeLossy_utf8 text (Nat.le_refl _)]

end Text
