import TightbeamExt.Base.Transition

/-!
# Forward simulation with observations

A specification is a labelled relation on states.  A program follows it when
each of its steps is matched by some labels of the specification, none or several,
that show the same observations.  Then every run of the program is matched by a run
of the specification that shows the same, in the same order.

The match of a step may use that the state before it is reached by a guarded run,
so invariants of the program need not be part of the relation.

## Main definitions

* `Path Step t₀ bs t` — the labels `bs` lead from `t₀` to `t`.
* `Follows` — every guarded step is matched.

## Main results

* `Trace.of_runs` — actions that play through leave a trace.
* `Follows.trace` — **a run is matched by a path with its observations**.
-/

namespace Transition

variable {σ α τ β ω : Type*}

/-! ### Paths -/

/-- The labels lead from `t₀` to a state, in order. -/
inductive Path (Step : τ → β → τ → Prop) (t₀ : τ) : List β → τ → Prop
  /-- No label. -/
  | nil : Path Step t₀ [] t₀
  /-- One more label. -/
  | snoc {bs : List β} {t t' : τ} {b : β} :
      Path Step t₀ bs t → Step t b t' → Path Step t₀ (bs ++ [b]) t'

variable {Step : τ → β → τ → Prop} {t₀ t t' : τ} {bs bs' : List β}

theorem Path.single {b : β} (h : Step t b t') : Path Step t [b] t' :=
  Path.nil.snoc h

theorem Path.append (h : Path Step t₀ bs t) (h' : Path Step t bs' t') :
    Path Step t₀ (bs ++ bs') t' := by
  induction h' with
  | nil => rwa [List.append_nil]
  | snoc _ hstep ih =>
    rw [← List.append_assoc]
    exact ih.snoc hstep

/-- The labels of a partial function, played one after the other. -/
theorem Path.runs {step : τ → β → Option τ}
    (h : Path (fun t b t' => step t b = some t') t₀ bs t) : Transition.runs step t₀ bs = some t := by
  induction h with
  | nil => rfl
  | @snoc bs t t' b _ hstep ih =>
    have happend : ∀ (as : List β) (s : τ), Transition.runs step s as = some t →
        Transition.runs step s (as ++ [b]) = some t' := by
      intro as
      induction as with
      | nil =>
        intro s hs
        obtain rfl := Option.some.inj hs
        simp only [List.nil_append, Transition.runs, hstep, Option.bind_some]
      | cons a as ihas =>
        intro s hs
        obtain ⟨s₁, hst, hrest⟩ := Option.bind_eq_some_iff.mp hs
        simp only [List.cons_append, Transition.runs, hst, Option.bind_some]
        exact ihas s₁ hrest
    exact happend bs t₀ ih

/-! ### Simulation -/

/-- Every guarded step from a reachable state is matched by labels that show the
same. -/
def Follows (step : σ → α → Option σ) (guard : σ → α → Prop) (s₀ : σ) (Step : τ → β → τ → Prop)
    (R : σ → τ → Prop) (seen : Move σ α → List ω) (shown : β → List ω) : Prop :=
  ∀ s a s' t, Reaches step guard s₀ s → R s t → guard s a → step s a = some s' →
    ∃ bs t', Path Step t bs t' ∧ bs.flatMap shown = seen ⟨s, a, s'⟩ ∧ R s' t'

variable {step : σ → α → Option σ} {guard : σ → α → Prop} {s₀ s s' : σ} {R : σ → τ → Prop}
  {seen : Move σ α → List ω} {shown : β → List ω} {moves : List (Move σ α)}

/-- Two traces, one after the other. -/
theorem Trace.append {s₁ s₂ s₃ : σ} {moves' : List (Move σ α)} (h : Trace step s₁ moves s₂)
    (h' : Trace step s₂ moves' s₃) : Trace step s₁ (moves ++ moves') s₃ := by
  induction h' with
  | nil => rwa [List.append_nil]
  | snoc _ hstep ih =>
    rw [← List.append_assoc]
    exact ih.snoc hstep

/-- Actions that play through under the condition leave a guarded trace. -/
theorem Trace.of_runs [∀ s a, Decidable (guard s a)] :
    ∀ (as : List α) {s s' : σ}, runs (restrict step guard) s as = some s' →
      ∃ moves, Trace step s moves s' ∧ (∀ m ∈ moves, guard m.before m.action) ∧
        moves.map Move.action = as := by
  intro as
  induction as with
  | nil =>
    intro s s' h
    rw [runs, Option.some.injEq] at h
    subst h
    exact ⟨[], .nil, fun m hm => (List.not_mem_nil hm).elim, rfl⟩
  | cons a as ih =>
    intro s s' h
    rw [runs, Option.bind_eq_some_iff] at h
    obtain ⟨s₁, hst, hrest⟩ := h
    obtain ⟨moves, htrace, hg, hactions⟩ := ih hrest
    rw [restrict] at hst
    split at hst
    · next hga =>
      have hfirst : Trace step s [⟨s, a, s₁⟩] s₁ := Trace.nil.snoc hst
      refine ⟨⟨s, a, s₁⟩ :: moves, hfirst.append htrace, ?_, by rw [List.map_cons, hactions]⟩
      intro m hm
      rcases List.mem_cons.mp hm with rfl | hm
      · exact hga
      · exact hg m hm
    · cases hst

/-- A guarded trace from a reached state reaches where it ends. -/
theorem Trace.reaches (h : Trace step s moves s') (hs : Reaches step guard s₀ s)
    (hg : ∀ m ∈ moves, guard m.before m.action) : Reaches step guard s₀ s' := by
  induction h with
  | nil => exact hs
  | snoc _ hstep ih =>
    exact (ih fun m hm => hg m (List.mem_append_left _ hm)).next
      (hg _ (List.mem_append_right _ List.mem_cons_self)) hstep

/-- **A run is matched by a path with its observations.** -/
theorem Follows.trace (h : Follows step guard s₀ Step R seen shown)
    (hs : Reaches step guard s₀ s) (hR : R s t) (htrace : Trace step s moves s')
    (hg : ∀ m ∈ moves, guard m.before m.action) :
    ∃ bs t', Path Step t bs t' ∧ bs.flatMap shown = moves.flatMap seen ∧ R s' t' := by
  induction htrace with
  | nil => exact ⟨[], t, .nil, rfl, hR⟩
  | @snoc moves s₁ s₂ a htrace hstep ih =>
    have hbefore : ∀ m ∈ moves, guard m.before m.action := fun m hm =>
      hg m (List.mem_append_left _ hm)
    obtain ⟨bs, t₁, hpath, hshown, hR₁⟩ := ih hbefore
    obtain ⟨bs', t₂, hpath', hshown', hR₂⟩ :=
      h s₁ a s₂ t₁ (htrace.reaches hs hbefore) hR₁
        (hg _ (List.mem_append_right _ List.mem_cons_self)) hstep
    refine ⟨bs ++ bs', t₂, hpath.append hpath', ?_, hR₂⟩
    rw [List.flatMap_append, List.flatMap_append, hshown, hshown', List.flatMap_singleton]

/-- A reached state is related to some state of the specification. -/
theorem Follows.reached (h : Follows step guard s₀ Step R seen shown) (h₀ : R s₀ t₀)
    (hs : Reaches step guard s₀ s) : ∃ bs t, Path Step t₀ bs t ∧ R s t := by
  induction hs with
  | start => exact ⟨[], t₀, .nil, h₀⟩
  | next hs hg hstep ih =>
    obtain ⟨bs, t, hpath, hR⟩ := ih
    obtain ⟨bs', t', hpath', -, hR'⟩ := h _ _ _ _ hs hR hg hstep
    exact ⟨bs ++ bs', t', hpath.append hpath', hR'⟩

end Transition
