import Mathlib.Logic.Function.Basic
import Mathlib.Tactic.Basic

/-!
# Labelled transition systems as partial step functions

A concurrent program is given by a partial function `step : σ → α → Option σ`:
the action names which thread moves and carries every choice the environment
makes, and `none` says that the thread has no such step in that state.  Runs are
quantified over all lists of actions, that is over all interleavings.

Most safety statements hold only of runs whose steps meet a side condition — a
counter that never saturates, a window in which nobody interferes — so
reachability carries a `guard` on the state before each step.

## Main definitions

* `Reaches step guard s₀ s` — a run from `s₀` to `s` whose steps all meet `guard`.
* `Reachable step s₀ s` — the same with no condition on the steps.
* `runs step s as` — the actions `as` played from `s`.
* `Trace step s₀ moves s` — a run with everything it passed through.

## Main results

* `Reaches.invariant` — **the induction rule**: what holds initially and is kept
  by every guarded step of a reachable state holds in every reachable state.
* `Reaches.of_runs` — a list of actions that plays through is a run.
-/

namespace Transition

variable {σ α : Type*} {step : σ → α → Option σ} {guard : σ → α → Prop} {s₀ : σ}

/-- `s` is reached from `s₀` by steps that all meet `guard`. -/
inductive Reaches (step : σ → α → Option σ) (guard : σ → α → Prop) (s₀ : σ) : σ → Prop
  /-- The empty run. -/
  | start : Reaches step guard s₀ s₀
  /-- One more guarded step. -/
  | next {s s' : σ} {a : α} :
      Reaches step guard s₀ s → guard s a → step s a = some s' → Reaches step guard s₀ s'

/-- `s` is reached from `s₀` by any steps. -/
abbrev Reachable (step : σ → α → Option σ) (s₀ : σ) : σ → Prop :=
  Reaches step (fun _ _ => True) s₀

/-- **The induction rule.**  The step obligation may use that the state before
the step is itself reached by a guarded run. -/
theorem Reaches.invariant {I : σ → Prop} (h₀ : I s₀)
    (hstep : ∀ s a s', Reaches step guard s₀ s → I s → guard s a → step s a = some s' → I s')
    {s : σ} (h : Reaches step guard s₀ s) : I s := by
  induction h with
  | start => exact h₀
  | next hs hg hst ih => exact hstep _ _ _ hs ih hg hst

/-- A weaker condition on the steps admits more runs. -/
theorem Reaches.mono {guard' : σ → α → Prop} (hg : ∀ s a, guard s a → guard' s a) {s : σ}
    (h : Reaches step guard s₀ s) : Reaches step guard' s₀ s := by
  induction h with
  | start => exact .start
  | next _ hga hst ih => exact ih.next (hg _ _ hga) hst

/-- Every guarded run is a run. -/
theorem Reaches.reachable {s : σ} (h : Reaches step guard s₀ s) : Reachable step s₀ s :=
  h.mono fun _ _ _ => trivial

/-- The actions `as` played one after the other. -/
def runs (step : σ → α → Option σ) : σ → List α → Option σ
  | s, [] => some s
  | s, a :: as => (step s a).bind fun s' => runs step s' as

/-- The steps that meet a decidable condition. -/
def restrict (step : σ → α → Option σ) (guard : σ → α → Prop) [∀ s a, Decidable (guard s a)]
    (s : σ) (a : α) : Option σ :=
  if guard s a then step s a else none

/-- A list of actions that plays through under the condition is a guarded run. -/
theorem Reaches.of_runs [∀ s a, Decidable (guard s a)] :
    ∀ (as : List α) {s t : σ}, Reaches step guard s₀ s →
      runs (restrict step guard) s as = some t → Reaches step guard s₀ t := by
  intro as
  induction as with
  | nil =>
    intro s t hs h
    rw [runs, Option.some.injEq] at h
    exact h ▸ hs
  | cons a as ih =>
    intro s t hs h
    rw [runs, Option.bind_eq_some_iff] at h
    obtain ⟨s', hst, hrest⟩ := h
    rw [restrict] at hst
    split at hst
    · next hg => exact ih (hs.next hg hst) hrest
    · cases hst

/-- A list of actions that plays through is a run. -/
theorem Reachable.of_runs {as : List α} {s : σ} (h : runs step s₀ as = some s) :
    Reachable step s₀ s := by
  have hrestrict : restrict step (fun _ _ => True) = step := by
    funext s a
    exact if_pos trivial
  refine Reaches.of_runs as .start ?_
  rw [hrestrict]
  exact h

/-! ### Traces -/

/-- One step, with the states around it. -/
structure Move (σ α : Type*) where
  /-- Where it starts. -/
  before : σ
  /-- What is done. -/
  action : α
  /-- Where it ends. -/
  after : σ

/-- The moves from `s₀` to a state, in order. -/
inductive Trace (step : σ → α → Option σ) (s₀ : σ) : List (Move σ α) → σ → Prop
  /-- No move. -/
  | nil : Trace step s₀ [] s₀
  /-- One more move. -/
  | snoc {moves : List (Move σ α)} {s s' : σ} {a : α} :
      Trace step s₀ moves s → step s a = some s' → Trace step s₀ (moves ++ [⟨s, a, s'⟩]) s'

theorem Trace.reachable {r s : σ} {moves : List (Move σ α)} (h : Trace step s₀ moves s)
    (hr : Reachable step r s₀) : Reachable step r s := by
  induction h with
  | nil => exact hr
  | snoc _ hstep ih => exact ih.next trivial hstep

/-- A move of a trace is a step of a reachable state. -/
theorem Trace.mem {r s : σ} {moves : List (Move σ α)} (h : Trace step s₀ moves s)
    (hr : Reachable step r s₀) {m : Move σ α} (hm : m ∈ moves) :
    Reachable step r m.before ∧ step m.before m.action = some m.after := by
  induction h with
  | nil => cases hm
  | snoc htrace hstep ih =>
    rw [List.mem_append, List.mem_singleton] at hm
    rcases hm with hm | rfl
    · exact ih hm
    · exact ⟨htrace.reachable hr, hstep⟩

/-- A trace, cut at a move. -/
theorem Trace.cut {earlier later : List (Move σ α)} {m : Move σ α} {s : σ}
    (h : Trace step s₀ (earlier ++ m :: later) s) :
    Trace step s₀ earlier m.before ∧ step m.before m.action = some m.after := by
  generalize hmoves : earlier ++ m :: later = moves at h
  induction h generalizing later with
  | nil => cases List.append_eq_nil_iff.1 hmoves |>.2
  | snoc htrace hstep ih =>
    rcases List.eq_nil_or_concat later with rfl | ⟨front, last, rfl⟩
    · obtain ⟨rfl, hlast⟩ := List.append_inj' hmoves rfl
      cases hlast
      exact ⟨htrace, hstep⟩
    · rw [List.concat_eq_append, ← List.cons_append, ← List.append_assoc] at hmoves
      exact ih (List.append_inj' hmoves rfl).1

end Transition
