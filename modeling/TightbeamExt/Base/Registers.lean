import Mathlib.Data.List.Perm.Basic
import Mathlib.Data.List.Nodup
import TightbeamExt.Base.Transition

/-!
# Writes to independent registers

A step writes one register.  A second write to the same register makes the first one
vain, and writes to different registers can change places.  Then what a run of writes
leaves depends on the last write to each register only, whatever their order.

Steps may fail, so each law speaks of steps that succeed, and says that the steps in the
other order succeed as well.

## Main definitions

* `Independent step target I` — the laws, in states with the invariant `I`.
* `lastWrite` — the last write to a register.
* `finals` — the writes that nothing after them makes vain.

## Main results

* `Independent.runs_finals` — **only the last write to each register counts**.
* `Independent.runs_perm` — the order of writes to different registers does not.
* `Independent.eq_of_lastWrite` — runs with the same last writes end in the same state.
-/

namespace Transition

variable {σ α τ : Type*} {step : σ → α → Option σ} {target : α → τ} {I : σ → Prop}

/-- Writes to registers, in states with an invariant. -/
structure Independent (step : σ → α → Option σ) (target : α → τ) (I : σ → Prop) : Prop where
  /-- Writes keep the invariant. -/
  keeps : ∀ {s a s'}, I s → step s a = some s' → I s'
  /-- A second write to a register makes the first one vain. -/
  absorbs : ∀ {s a b t u}, I s → target a = target b → step s a = some t → step t b = some u →
    step s b = some u
  /-- Writes to different registers change places. -/
  commutes : ∀ {s a b t u}, I s → target a ≠ target b → step s a = some t → step t b = some u →
    ∃ t', step s b = some t' ∧ step t' a = some u

theorem runs_cons {s r : σ} {a : α} {as : List α} :
    runs step s (a :: as) = some r ↔ ∃ t, step s a = some t ∧ runs step t as = some r := by
  rw [runs, Option.bind_eq_some_iff]

theorem runs_append {s r : σ} {as bs : List α} :
    runs step s (as ++ bs) = some r ↔ ∃ t, runs step s as = some t ∧ runs step t bs = some r := by
  induction as generalizing s with
  | nil => simp [runs]
  | cons a as ih =>
    rw [List.cons_append, runs_cons]
    simp only [ih, runs_cons]
    constructor
    · rintro ⟨t, hstep, u, hrun, hrest⟩
      exact ⟨u, ⟨t, hstep, hrun⟩, hrest⟩
    · rintro ⟨u, ⟨t, hstep, hrun⟩, hrest⟩
      exact ⟨t, hstep, u, hrun, hrest⟩

/-- **The order of writes to different registers does not count.** -/
theorem Independent.runs_perm (h : Independent step target I) {as bs : List α} (hperm : as.Perm bs) :
    ∀ {s r : σ}, I s → (as.map target).Nodup → runs step s as = some r →
      runs step s bs = some r := by
  induction hperm with
  | nil => intro s r _ _ hrun; exact hrun
  | cons a _ ih =>
    intro s r hs hnodup hrun
    obtain ⟨t, ha, hrun⟩ := runs_cons.mp hrun
    exact runs_cons.mpr ⟨t, ha, ih (h.keeps hs ha) (List.nodup_cons.mp hnodup).2 hrun⟩
  | swap a b as =>
    intro s r hs hnodup hrun
    obtain ⟨t, hb, hrun⟩ := runs_cons.mp hrun
    obtain ⟨u, ha, hrun⟩ := runs_cons.mp hrun
    have hne : target b ≠ target a := by
      intro heq
      exact (List.nodup_cons.mp hnodup).1 (heq ▸ List.mem_cons_self ..)
    obtain ⟨t', ha', hb'⟩ := h.commutes hs hne hb ha
    exact runs_cons.mpr ⟨t', ha', runs_cons.mpr ⟨u, hb', hrun⟩⟩
  | trans hfirst _ ih₁ ih₂ =>
    intro s r hs hnodup hrun
    exact ih₂ hs ((hfirst.map target).nodup_iff.mp hnodup) (ih₁ hs hnodup hrun)

section Last

variable [DecidableEq τ]

/-- The last write to a register. -/
def lastWrite (target : α → τ) (t : τ) : List α → Option α
  | [] => none
  | a :: as => (lastWrite target t as).or (if target a = t then some a else none)

/-- The writes that nothing after them makes vain. -/
def finals (target : α → τ) : List α → List α
  | [] => []
  | a :: as => if target a ∈ as.map target then finals target as else a :: finals target as

theorem lastWrite_eq_none {t : τ} : ∀ {as : List α},
    lastWrite target t as = none ↔ t ∉ as.map target := by
  intro as
  induction as with
  | nil => simp [lastWrite]
  | cons a as ih =>
    rw [lastWrite, Option.or_eq_none_iff, ih, List.map_cons, List.mem_cons, not_or, and_comm]
    refine and_congr ?_ Iff.rfl
    by_cases h : target a = t
    · simp [h]
    · simp [h, Ne.symm h]

/-- What is final is the last write to its register. -/
theorem mem_finals {a : α} : ∀ {as : List α},
    a ∈ finals target as ↔ lastWrite target (target a) as = some a := by
  intro as
  induction as with
  | nil => simp [finals, lastWrite]
  | cons b as ih =>
    rw [finals, lastWrite]
    by_cases hvain : target b ∈ as.map target
    · -- some later write has the register of `b`
      rw [if_pos hvain, ih]
      cases hlast : lastWrite target (target a) as with
      | some c => simp
      | none =>
        have hne : target b ≠ target a := by
          intro heq
          rw [heq] at hvain
          exact lastWrite_eq_none.mp hlast hvain
        simp [hne]
    · rw [if_neg hvain, List.mem_cons, ih]
      by_cases heq : target b = target a
      · have hlast : lastWrite target (target a) as = none :=
          lastWrite_eq_none.mpr (heq ▸ hvain)
        simp [hlast, heq, eq_comm]
      · have hne : a ≠ b := by
          rintro rfl
          exact heq rfl
        cases hlast : lastWrite target (target a) as <;> simp [heq, hne]

theorem target_mem_of_mem_finals {a : α} {as : List α} (h : a ∈ finals target as) :
    target a ∈ as.map target := by
  by_contra hnot
  rw [mem_finals, lastWrite_eq_none.mpr hnot] at h
  cases h

/-- Final writes go to different registers. -/
theorem nodup_finals (as : List α) : ((finals target as).map target).Nodup := by
  induction as with
  | nil => exact List.nodup_nil
  | cons a as ih =>
    rw [finals]
    split
    · exact ih
    · next hvain =>
      rw [List.map_cons, List.nodup_cons]
      refine ⟨?_, ih⟩
      intro hmem
      obtain ⟨b, hb, heq⟩ := List.mem_map.mp hmem
      exact hvain (heq ▸ target_mem_of_mem_finals hb)

namespace Independent

/-- A write with a later one to the same register can be left out. -/
theorem runs_drop (h : Independent step target I) {a : α} : ∀ {as : List α} {s r : σ}, I s →
    target a ∈ as.map target → runs step s (a :: as) = some r → runs step s as = some r := by
  intro as
  induction as with
  | nil => intro s r _ hmem; cases hmem
  | cons b as ih =>
    intro s r hs hmem hrun
    obtain ⟨t, ha, hrun⟩ := runs_cons.mp hrun
    obtain ⟨u, hb, hrun⟩ := runs_cons.mp hrun
    by_cases heq : target a = target b
    · exact runs_cons.mpr ⟨u, h.absorbs hs heq ha hb, hrun⟩
    · -- behind `b` the later write is still to come
      obtain ⟨t', hb', ha'⟩ := h.commutes hs heq ha hb
      have hlater : target a ∈ as.map target := by
        rcases List.mem_cons.mp hmem with hmem | hmem
        · exact absurd hmem heq
        · exact hmem
      exact runs_cons.mpr ⟨t', hb', ih (h.keeps hs hb') hlater (runs_cons.mpr ⟨u, ha', hrun⟩)⟩

/-- **Only the last write to each register counts.** -/
theorem runs_finals (h : Independent step target I) : ∀ {as : List α} {s r : σ}, I s →
    runs step s as = some r → runs step s (finals target as) = some r := by
  intro as
  induction as with
  | nil => intro s r _ hrun; exact hrun
  | cons a as ih =>
    intro s r hs hrun
    rw [finals]
    split
    · next hvain => exact ih hs (h.runs_drop hs hvain hrun)
    · obtain ⟨t, ha, hrun⟩ := runs_cons.mp hrun
      exact runs_cons.mpr ⟨t, ha, ih (h.keeps hs ha) hrun⟩

/-- **Runs with the same last writes** end in the same state. -/
theorem eq_of_lastWrite (h : Independent step target I) {as bs : List α} {s r r' : σ} (hs : I s)
    (hlast : ∀ t, lastWrite target t as = lastWrite target t bs)
    (has : runs step s as = some r) (hbs : runs step s bs = some r') : r = r' := by
  have hperm : (finals target as).Perm (finals target bs) := by
    refine (List.perm_ext_iff_of_nodup (nodup_finals as).of_map (nodup_finals bs).of_map).mpr ?_
    intro a
    rw [mem_finals, mem_finals, hlast]
  have hrun := h.runs_perm hperm hs (nodup_finals as) (h.runs_finals hs has)
  exact Option.some.inj (hrun.symm.trans (h.runs_finals hs hbs))

end Independent

end Last

end Transition
