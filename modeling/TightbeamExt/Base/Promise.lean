import Mathlib.Data.List.Basic
import Mathlib.Tactic.Common

/-!
# Numbered promises

A promise is pending until it is settled, and the first settlement stands.  Promises
are numbered in the order they are made, so a caller that holds a number can ask for
the outcome later.

## Main definitions

* `Promises` — the outcomes so far, by number.
* `make`, `settle`, `settleAll` — a new promise, and one or several outcomes.
* `Tabulates ps n g` — there are `n` promises, and `g` says how each stands.

## Main results

* `getElem?_settle`, `getElem?_settleAll` — what settling does to each promise.
* `Tabulates.make`, `Tabulates.settle`, `Tabulates.settleAll` — and to the table.
-/

/-- The outcomes so far; `none` is pending. -/
abbrev Promises (α : Type*) := List (Option α)

namespace Promises

variable {α : Type*}

/-- One more promise, settled at once or pending. -/
def make (ps : Promises α) (outcome : Option α) : Promises α := ps ++ [outcome]

/-- Settle the promise `k`; the first settlement stands. -/
def settle (ps : Promises α) (k : ℕ) (a : α) : Promises α := ps.modify k fun p => p.or (some a)

/-- Settle several promises the same way. -/
def settleAll (ps : Promises α) (ks : List ℕ) (a : α) : Promises α :=
  ks.foldl (fun ps k => ps.settle k a) ps

@[simp] theorem length_make (ps : Promises α) (o : Option α) :
    (ps.make o).length = ps.length + 1 := by
  simp [make]

@[simp] theorem length_settle (ps : Promises α) (k : ℕ) (a : α) :
    (ps.settle k a).length = ps.length := by
  simp [settle]

@[simp] theorem length_settleAll (ps : Promises α) (ks : List ℕ) (a : α) :
    (ps.settleAll ks a).length = ps.length := by
  induction ks generalizing ps with
  | nil => rfl
  | cons k ks ih =>
    rw [settleAll, List.foldl_cons]
    exact (ih _).trans (length_settle ps k a)

theorem getElem?_make (ps : Promises α) (o : Option α) (i : ℕ) :
    (ps.make o)[i]? = if i = ps.length then some o else ps[i]? := by
  split
  · next h => simp [make, h]
  · next h =>
    rcases Nat.lt_or_gt_of_ne h with hlt | hgt
    · rw [make, List.getElem?_append_left hlt]
    · rw [List.getElem?_eq_none (Nat.le_of_lt hgt), List.getElem?_eq_none]
      rw [length_make]
      exact hgt

theorem getElem?_settle (ps : Promises α) (k : ℕ) (a : α) (i : ℕ) :
    (ps.settle k a)[i]? = if i = k then ps[i]?.map (·.or (some a)) else ps[i]? := by
  rw [settle, List.getElem?_modify]
  by_cases h : i = k
  · simp [h]
  · simp [h, Ne.symm h]

theorem getElem?_settleAll (ps : Promises α) (ks : List ℕ) (a : α) (i : ℕ) :
    (ps.settleAll ks a)[i]? = if i ∈ ks then ps[i]?.map (·.or (some a)) else ps[i]? := by
  induction ks generalizing ps with
  | nil => simp [settleAll]
  | cons k ks ih =>
    have hcons : ps.settleAll (k :: ks) a = (ps.settle k a).settleAll ks a := rfl
    rw [hcons, ih, getElem?_settle]
    by_cases hk : i = k
    · -- a second settlement changes nothing
      subst hk
      by_cases hi : i ∈ ks
      · cases ps[i]? <;> simp [hi]
      · simp [hi]
    · simp [hk]

/-! ### How all of them stand -/

/-- There are `n` promises, and `g` says how each stands. -/
def Tabulates (ps : Promises α) (n : ℕ) (g : ℕ → Option α) : Prop :=
  ∀ i, ps[i]? = if i < n then some (g i) else none

namespace Tabulates

variable {ps : Promises α} {n : ℕ} {g g' : ℕ → Option α}

theorem length (h : Tabulates ps n g) : ps.length = n := by
  have hlen := h ps.length
  have hend := h n
  rw [List.getElem?_eq_none (Nat.le_refl _)] at hlen
  rw [if_neg (Nat.lt_irrefl _), List.getElem?_eq_none_iff] at hend
  split at hlen
  · cases hlen
  · omega

/-- The table may change where there is no promise. -/
theorem congr (h : Tabulates ps n g) (hg : ∀ i < n, g' i = g i) : Tabulates ps n g' := by
  intro i
  rw [h i]
  split
  · next hi => rw [hg i hi]
  · rfl

theorem make (h : Tabulates ps n g) {o : Option α} (hnew : g' n = o) (hg : ∀ i < n, g' i = g i) :
    Tabulates (ps.make o) (n + 1) g' := by
  intro i
  rw [getElem?_make, h.length]
  by_cases hi : i = n
  · rw [if_pos hi, if_pos (by omega), hi, hnew]
  · rw [if_neg hi, h.congr hg i]
    have hiff : i < n + 1 ↔ i < n := by omega
    simp only [hiff]

theorem settleAll (h : Tabulates ps n g) {ks : List ℕ} {a : α}
    (hin : ∀ i < n, i ∈ ks → g' i = (g i).or (some a)) (hout : ∀ i < n, i ∉ ks → g' i = g i) :
    Tabulates (ps.settleAll ks a) n g' := by
  intro i
  rw [getElem?_settleAll, h i]
  by_cases hi : i < n
  · by_cases hk : i ∈ ks
    · rw [if_pos hk, if_pos hi, if_pos hi, Option.map_some, hin i hi hk]
    · rw [if_neg hk, if_pos hi, if_pos hi, hout i hi hk]
  · simp [hi]

theorem settle (h : Tabulates ps n g) {k : ℕ} {a : α} (hin : k < n → g' k = (g k).or (some a))
    (hout : ∀ i < n, i ≠ k → g' i = g i) : Tabulates (ps.settle k a) n g' := by
  have hone : ps.settle k a = ps.settleAll [k] a := rfl
  rw [hone]
  refine h.settleAll ?_ ?_
  · intro i hi hk
    rw [List.mem_singleton] at hk
    subst hk
    exact hin hi
  · intro i hi hk
    exact hout i hi fun h => hk (List.mem_singleton.mpr h)

end Tabulates

end Promises
