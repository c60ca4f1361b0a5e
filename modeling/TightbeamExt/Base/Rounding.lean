import Mathlib.Data.Nat.Log
import Mathlib.Algebra.Order.Field.Power
import Mathlib.Algebra.Order.Field.Rat
import Mathlib.Tactic.Ring
import Mathlib.Tactic.Linarith
import Mathlib.Tactic.GCongr

/-!
# Rounding a natural number to a binary precision

A binary floating-point number of precision `p` is `m * 2 ^ e` with
`|m| < 2 ^ p`.  `roundEven p n` keeps the `p` leading bits of `n` and rounds
what it drops to the nearer side, to the even one halfway.  The numbers of
precision `p` from `2 ^ (e + p - 1)` on are multiples of `2 ^ e`, so none lies
strictly between the two multiples around `n`; every bound below comes from
that.

## Main results

* `roundEven_nearest` — no number of precision `p` is nearer to `n`.
* `lt_roundEven` — rounding does not change how `n` compares with a number
  below `2 ^ p`.
-/

namespace Rounding

/-- `x` is written with `p` significant bits. -/
def HasPrecision (p : ℕ) (x : ℚ) : Prop :=
  ∃ m e : ℤ, |m| < 2 ^ p ∧ x = m * 2 ^ e

/-- The weight of the last bit kept of `n`. -/
def unit (p n : ℕ) : ℕ := 2 ^ (n.log2 + 1 - p)

/-- How many units `n` rounds to: to the nearer side, to the even one halfway. -/
def units (p n : ℕ) : ℕ :=
  let quotient := n / unit p n
  let rest := n % unit p n
  if 2 * rest < unit p n ∨ (2 * rest = unit p n ∧ quotient % 2 = 0) then quotient
  else quotient + 1

/-- `n` rounded to `p` significant bits. -/
def roundEven (p n : ℕ) : ℕ := units p n * unit p n

section

variable {p n : ℕ}

theorem unit_pos : 0 < unit p n := Nat.two_pow_pos _

theorem unit_of_lt (hp : 0 < p) (h : n < 2 ^ p) : unit p n = 1 := by
  have hlog : n.log2 < p := by
    by_cases hn : n = 0
    · simpa [hn] using hp
    · exact (Nat.log2_lt hn).2 h
  rw [unit, Nat.sub_eq_zero_of_le hlog, pow_zero]

/-- A number that fits the precision is kept. -/
theorem roundEven_of_lt (hp : 0 < p) (h : n < 2 ^ p) : roundEven p n = n := by
  simp [roundEven, units, unit_of_lt hp h, Nat.mod_one]

/-! ### The two multiples around a number -/

/-- `n` lies from its quotient on and before the next multiple. -/
theorem bracket (p n : ℕ) :
    n / unit p n * unit p n ≤ n ∧ n < (n / unit p n + 1) * unit p n := by
  have hdiv := Nat.div_add_mod n (unit p n)
  have hmod := Nat.mod_lt n (unit_pos (p := p) (n := n))
  constructor
  · exact Nat.div_mul_le_self n (unit p n)
  · rw [Nat.add_mul, Nat.one_mul]
    calc n = unit p n * (n / unit p n) + n % unit p n := hdiv.symm
      _ < unit p n * (n / unit p n) + unit p n := by omega
      _ = n / unit p n * unit p n + unit p n := by rw [Nat.mul_comm]

/-- The quotient of a number past the precision has `p` bits, the first of them set. -/
theorem quotient_bounds (hp : 0 < p) (h : 2 ^ p ≤ n) :
    2 ^ (p - 1) ≤ n / unit p n ∧ n / unit p n < 2 ^ p := by
  have hn : n ≠ 0 := by
    have := Nat.two_pow_pos p
    omega
  have hlog : p ≤ n.log2 := (Nat.le_log2 hn).2 h
  have hlow : 2 ^ (p - 1) * unit p n = 2 ^ n.log2 := by
    rw [unit, ← pow_add]
    congr 1
    omega
  have hhigh : 2 ^ p * unit p n = 2 ^ (n.log2 + 1) := by
    rw [unit, ← pow_add]
    congr 1
    omega
  constructor
  · rw [Nat.le_div_iff_mul_le unit_pos, hlow]
    exact Nat.log2_self_le hn
  · rw [Nat.div_lt_iff_lt_mul unit_pos, hhigh]
    exact Nat.lt_log2_self

theorem units_eq_or (p n : ℕ) :
    units p n = n / unit p n ∨ units p n = n / unit p n + 1 := by
  unfold units
  dsimp only
  split
  · exact Or.inl rfl
  · exact Or.inr rfl

/-- Large numbers of precision `p` are multiples of a large unit. -/
theorem HasPrecision.multiple {x : ℚ} {e : ℤ} (hx : HasPrecision p x)
    (h : (2 : ℚ) ^ (e + p - 1) ≤ x) : ∃ j : ℤ, x = j * 2 ^ e := by
  obtain ⟨m, k, hm, rfl⟩ := hx
  have hm' : (m : ℚ) < 2 ^ (p : ℤ) := by
    have : m < 2 ^ p := (abs_lt.1 hm).2
    rw [zpow_natCast]
    exact_mod_cast this
  have hlt : (2 : ℚ) ^ (e + p - 1) < 2 ^ (p + k : ℤ) := by
    calc (2 : ℚ) ^ (e + p - 1) ≤ m * 2 ^ k := h
      _ < 2 ^ (p : ℤ) * 2 ^ k := by gcongr
      _ = 2 ^ (p + k : ℤ) := (zpow_add₀ (by norm_num) _ _).symm
  have hk : e ≤ k := by
    have := (zpow_lt_zpow_iff_right₀ (by norm_num : (1 : ℚ) < 2)).1 hlt
    omega
  obtain ⟨d, rfl⟩ := Int.le.dest hk
  refine ⟨m * 2 ^ d, ?_⟩
  rw [zpow_add₀ (by norm_num), zpow_natCast]
  push_cast
  ring

/-- No number of precision `p` lies strictly between the two multiples around `n`. -/
theorem HasPrecision.outside {x : ℚ} (hp : 0 < p) (h : 2 ^ p ≤ n) (hx : HasPrecision p x) :
    x ≤ (n / unit p n * unit p n : ℕ) ∨ ((n / unit p n + 1) * unit p n : ℕ) ≤ x := by
  by_cases hlow : x < (n / unit p n * unit p n : ℕ)
  · exact Or.inl hlow.le
  · have hlog : p ≤ n.log2 := (Nat.le_log2 (by have := Nat.two_pow_pos p; omega)).2 h
    have hbound : 2 ^ n.log2 ≤ n / unit p n * unit p n := by
      have hbits := Nat.mul_le_mul_right (unit p n) (quotient_bounds hp h).1
      rwa [unit, ← pow_add, show p - 1 + (n.log2 + 1 - p) = n.log2 by omega, ← unit] at hbits
    have hle : (2 : ℚ) ^ (((n.log2 + 1 - p : ℕ) : ℤ) + p - 1) ≤ x := by
      rw [show (((n.log2 + 1 - p : ℕ) : ℤ) + p - 1) = (n.log2 : ℤ) by omega, zpow_natCast]
      calc (2 : ℚ) ^ n.log2 ≤ (n / unit p n * unit p n : ℕ) := by exact_mod_cast hbound
        _ ≤ x := not_lt.1 hlow
    obtain ⟨j, hj⟩ := hx.multiple hle
    have hj' : x = j * (unit p n : ℕ) := by
      rw [hj, unit, zpow_natCast]
      push_cast
      rfl
    have hunit : (0 : ℚ) < (unit p n : ℕ) := by exact_mod_cast unit_pos
    rcases le_or_gt j (n / unit p n : ℕ) with hle | hgt
    · left
      have hle' : (j : ℚ) ≤ (n / unit p n : ℕ) := by
        rw [← Int.cast_natCast]
        exact Int.cast_le.2 hle
      rw [hj', Nat.cast_mul]
      exact mul_le_mul_of_nonneg_right hle' hunit.le
    · right
      have hgt' : ((n / unit p n + 1 : ℕ) : ℚ) ≤ j := by
        rw [← Int.cast_natCast]
        exact Int.cast_le.2 (by omega)
      rw [hj', Nat.cast_mul]
      exact mul_le_mul_of_nonneg_right hgt' hunit.le

/-! ### What rounding gives -/

/-- The rounded number has the precision asked for, and an exponent no larger than its size
asks for. -/
theorem roundEven_digits (hp : 0 < p) (n : ℕ) :
    ∃ m e : ℕ, m < 2 ^ p ∧ e ≤ n.log2 + 1 ∧ roundEven p n = m * 2 ^ e := by
  by_cases h : n < 2 ^ p
  · exact ⟨n, 0, h, Nat.zero_le _, by simp [roundEven_of_lt hp h]⟩
  · have hbits := (quotient_bounds hp (not_lt.1 h)).2
    -- only rounding up to `2 ^ p` itself needs the exponent one higher
    by_cases htop : units p n = 2 ^ p
    · refine ⟨2 ^ (p - 1), n.log2 + 1 - p + 1, Nat.pow_lt_pow_right (by decide) (by omega),
        by omega, ?_⟩
      rw [roundEven, htop, unit, ← pow_add, ← pow_add]
      congr 1
      omega
    · have hunits : units p n < 2 ^ p := by
        rcases units_eq_or p n with hu | hu <;> omega
      exact ⟨units p n, n.log2 + 1 - p, hunits, by omega, rfl⟩

/-- **No number of precision `p` is nearer to `n` than the rounded one.** -/
theorem roundEven_nearest {x : ℚ} (hp : 0 < p) (hx : HasPrecision p x) :
    |(n : ℚ) - roundEven p n| ≤ |(n : ℚ) - x| := by
  by_cases h : n < 2 ^ p
  · rw [roundEven_of_lt hp h, sub_self, abs_zero]
    exact abs_nonneg _
  · obtain ⟨hlow, hhigh⟩ := bracket p n
    have hdiv : n / unit p n * unit p n + n % unit p n = n := by
      rw [Nat.mul_comm]
      exact Nat.div_add_mod n (unit p n)
    have hout := hx.outside hp (not_lt.1 h)
    -- the distance to the side taken is at most that to the other side
    have hnear : |(n : ℚ) - roundEven p n| ≤ (n : ℚ) - (n / unit p n * unit p n : ℕ) ∧
        |(n : ℚ) - roundEven p n| ≤ ((n / unit p n + 1) * unit p n : ℕ) - (n : ℚ) := by
      have hq : ((n / unit p n * unit p n : ℕ) : ℚ) + (n % unit p n : ℕ) = n := by
        exact_mod_cast hdiv
      have hup : (((n / unit p n + 1) * unit p n : ℕ) : ℚ) =
          (n / unit p n * unit p n : ℕ) + (unit p n : ℕ) := by
        push_cast
        ring
      unfold roundEven units
      dsimp only
      split
      · next hside =>
        have hhalf : 2 * (n % unit p n) ≤ unit p n := by omega
        have hhalf' : 2 * ((n % unit p n : ℕ) : ℚ) ≤ (unit p n : ℕ) := by exact_mod_cast hhalf
        have hrest : (0 : ℚ) ≤ (n % unit p n : ℕ) := Nat.cast_nonneg _
        rw [abs_of_nonneg (by linarith), hup]
        constructor <;> linarith
      · next hside =>
        have hhalf : unit p n ≤ 2 * (n % unit p n) := by omega
        have hhalf' : ((unit p n : ℕ) : ℚ) ≤ 2 * (n % unit p n : ℕ) := by exact_mod_cast hhalf
        have hlt : (n : ℚ) < ((n / unit p n + 1) * unit p n : ℕ) := by exact_mod_cast hhigh
        rw [abs_of_nonpos (by linarith)]
        constructor <;> linarith
    rcases hout with hx | hx
    · calc |(n : ℚ) - roundEven p n| ≤ (n : ℚ) - (n / unit p n * unit p n : ℕ) := hnear.1
        _ ≤ (n : ℚ) - x := by linarith
        _ ≤ |(n : ℚ) - x| := le_abs_self _
    · calc |(n : ℚ) - roundEven p n| ≤ ((n / unit p n + 1) * unit p n : ℕ) - (n : ℚ) := hnear.2
        _ ≤ -((n : ℚ) - x) := by linarith
        _ ≤ |(n : ℚ) - x| := neg_le_abs _

/-- **Rounding keeps how `n` compares with a number below `2 ^ p`.** -/
theorem lt_roundEven {m : ℕ} (hp : 0 < p) (hm : m < 2 ^ p) : m < roundEven p n ↔ m < n := by
  by_cases h : n < 2 ^ p
  · rw [roundEven_of_lt hp h]
  · have hn := not_lt.1 h
    have hlog : p ≤ n.log2 := (Nat.le_log2 (by have := Nat.two_pow_pos p; omega)).2 hn
    have hround : 2 ^ p ≤ roundEven p n := by
      calc 2 ^ p ≤ 2 ^ n.log2 := Nat.pow_le_pow_right (by norm_num) hlog
        _ = 2 ^ (p - 1) * unit p n := by
          rw [unit, ← pow_add]
          congr 1
          omega
        _ ≤ units p n * unit p n := by
          have hbits := (quotient_bounds hp hn).1
          refine Nat.mul_le_mul_right _ ?_
          rcases units_eq_or p n with hu | hu <;> omega
    constructor <;> intro <;> omega

end

end Rounding
