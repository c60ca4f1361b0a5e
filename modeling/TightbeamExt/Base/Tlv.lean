import Mathlib.Data.Nat.Notation

/-!
# Elements one after the other

Elements are written to a list of symbols one after the other, with nothing in between, and read
back until the list ends.  A codec for one element that knows where the element ends gives one
for the whole list.

Reading and writing can fail, so both are in `Except`; the first section has the facts about its
`do` blocks that every proof over it uses.

## Main definitions

* `Codec` — write an element, and read one off the front of a list.
* `Codec.Lawful` — what was written is read back.
* `Codec.writeAll`, `Codec.readAll` — the same for a list of elements.

## Main results

* `Codec.Lawful.readAll_writeAll` — **a list of elements is read back as it was written.**
* `Codec.Lawful.writeAll_readAll` — and what was read would be written so.
-/

namespace TightbeamExt

/-! ### Results of `do` blocks -/

section Except

variable {ε ε' α β : Type*}

theorem bind_ok {x : Except ε α} {f : α → Except ε β} {b : β} (h : x.bind f = .ok b) :
    ∃ a, x = .ok a ∧ f a = .ok b := by
  cases x with
  | error e => cases h
  | ok a => exact ⟨a, rfl, h⟩

theorem bind_ok_iff {α β : Type} {x : Except ε α} {f : α → Except ε β} {b : β} :
    (x >>= f) = .ok b ↔ ∃ a, x = .ok a ∧ f a = .ok b := by
  constructor
  · exact bind_ok
  · rintro ⟨a, rfl, hf⟩
    exact hf

theorem bind_eq_of_ok {α β : Type} {x : Except ε α} {f : α → Except ε β} {a : α} (h : x = .ok a) :
    (x >>= f) = f a := by
  rw [h]
  rfl

theorem map_ok {x : Except ε α} {f : α → β} {b : β} (h : x.map f = .ok b) :
    ∃ a, x = .ok a ∧ f a = b := by
  cases x with
  | error e => cases h
  | ok a => cases h; exact ⟨a, rfl, rfl⟩

theorem mapError_ok {x : Except ε α} {f : ε → ε'} {a : α} (h : x.mapError f = .ok a) :
    x = .ok a := by
  cases x with
  | error e => cases h
  | ok a => cases h; rfl

end Except

namespace Tlv

/-- Write an element, and read one off the front of a list. -/
structure Codec (ε σ α : Type*) where
  /-- Write an element. -/
  write : α → Except ε (List σ)
  /-- Read an element, and give what follows it. -/
  read : List σ → Except ε (α × List σ)
  /-- Reading gets on. -/
  read_lt : ∀ {s a rest}, read s = .ok (a, rest) → rest.length < s.length

namespace Codec

variable {ε σ α : Type*} (C : Codec ε σ α)

/-- What was written is read back, whatever follows it, and what was read is what would be
written. -/
structure Lawful : Prop where
  /-- What was written is read back. -/
  read_write : ∀ {a s} (rest : List σ), C.write a = .ok s → C.read (s ++ rest) = .ok (a, rest)
  /-- What was read would be written so. -/
  write_read : ∀ {a s rest}, C.read s = .ok (a, rest) →
    ∃ front, C.write a = .ok front ∧ s = front ++ rest

/-- Write elements one after the other. -/
def writeAll : List α → Except ε (List σ)
  | [] => .ok []
  | a :: as => (C.write a).bind fun front => (writeAll as).map (front ++ ·)

/-- Read elements until nothing is left.  Each one read takes at least one symbol, so as many
rounds as there are symbols are enough. -/
def readRounds : ℕ → List σ → Except ε (List α)
  | _, [] => .ok []
  | 0, _ :: _ => .ok []
  | n + 1, x :: s => (C.read (x :: s)).bind fun out => (readRounds n out.2).map (out.1 :: ·)

/-- Read elements until nothing is left. -/
def readAll (s : List σ) : Except ε (List α) := C.readRounds s.length s

variable {C}

/-- Rounds to spare change nothing. -/
theorem readRounds_eq : ∀ {m n : ℕ} {s : List σ}, s.length ≤ m → s.length ≤ n →
    C.readRounds m s = C.readRounds n s := by
  intro m
  induction m with
  | zero =>
    intro n s hm _
    obtain rfl := List.length_eq_zero_iff.mp (Nat.le_zero.mp hm)
    cases n <;> rfl
  | succ m ih =>
    intro n s hm hn
    cases s with
    | nil => cases n <;> rfl
    | cons x s =>
      cases n with
      | zero => exact absurd hn (Nat.not_succ_le_zero _)
      | succ n =>
        simp only [readRounds]
        cases hread : C.read (x :: s) with
        | error e => rfl
        | ok out =>
          have hlt := C.read_lt hread
          have hrest : C.readRounds m out.2 = C.readRounds n out.2 := ih (by omega) (by omega)
          simp only [Except.bind, hrest]

theorem readAll_of_read {a : α} {s rest : List σ} (h : C.read s = .ok (a, rest)) :
    C.readAll s = (C.readAll rest).map (a :: ·) := by
  have hlt := C.read_lt h
  cases s with
  | nil => exact absurd hlt (Nat.not_lt_zero _)
  | cons x s =>
    rw [readAll, List.length_cons, readRounds, h]
    show (C.readRounds s.length rest).map _ = _
    rw [readAll, readRounds_eq (n := rest.length) (Nat.lt_succ_iff.mp hlt) Nat.le.refl]

namespace Lawful

/-- **A list of elements is read back as it was written.** -/
theorem readAll_writeAll (hC : C.Lawful) : ∀ {as : List α} {s : List σ},
    C.writeAll as = .ok s → C.readAll s = .ok as := by
  intro as
  induction as with
  | nil =>
    intro s h
    cases h
    rfl
  | cons a as ih =>
    intro s h
    obtain ⟨front, hfront, h⟩ := bind_ok h
    obtain ⟨rest, hrest, rfl⟩ := map_ok h
    rw [readAll_of_read (hC.read_write rest hfront), ih hrest]
    rfl

/-- **What was read would be written so**, element by element. -/
theorem writeAll_readAll (hC : C.Lawful) {s : List σ} {as : List α} (h : C.readAll s = .ok as) :
    C.writeAll as = .ok s := by
  have hrounds : ∀ (n : ℕ) {s : List σ} {as : List α}, s.length ≤ n →
      C.readRounds n s = .ok as → C.writeAll as = .ok s := by
    intro n
    induction n with
    | zero =>
      intro s as hle h
      obtain rfl := List.length_eq_zero_iff.mp (Nat.le_zero.mp hle)
      cases h
      rfl
    | succ n ih =>
      intro s as hle h
      cases s with
      | nil => cases h; rfl
      | cons x s =>
        obtain ⟨⟨a, rest⟩, hread, h⟩ := bind_ok h
        obtain ⟨as', has', rfl⟩ := map_ok h
        have hlt := C.read_lt hread
        have hrest := ih (Nat.lt_succ_iff.mp (Nat.lt_of_lt_of_le hlt hle)) has'
        obtain ⟨front, hfront, hsplit⟩ := hC.write_read hread
        rw [hsplit, writeAll, hfront]
        show (C.writeAll as').map _ = _
        rw [hrest]
        rfl
  exact hrounds s.length Nat.le.refl h

/-- An element alone is read back, with nothing after it. -/
theorem read_write_nil (hC : C.Lawful) {a : α} {s : List σ} (h : C.write a = .ok s) :
    C.read s = .ok (a, []) := by
  have hread := hC.read_write [] h
  rwa [List.append_nil] at hread

/-- What is read with nothing after it would be written so. -/
theorem write_read_nil (hC : C.Lawful) {a : α} {s : List σ} (h : C.read s = .ok (a, [])) :
    C.write a = .ok s := by
  obtain ⟨front, hfront, rfl⟩ := hC.write_read h
  rwa [List.append_nil]

end Lawful
end Codec
end Tlv
end TightbeamExt
