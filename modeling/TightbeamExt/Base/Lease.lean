import Mathlib.Data.List.Infix
import Mathlib.Logic.Function.Basic
import Mathlib.Tactic.Basic

/-!
# A value taken from a cell

A cell holds a value.  A task takes it out, uses it on its own while others move, and then puts it
back; a final use keeps it instead.  Whoever finds the cell empty goes away.  No lock is involved:
there is one value, and it is in the cell, or with one task, or used up.  So the uses come one
after the other, each settles before the next starts, and a final use is the last.

## Main definitions

* `Protocol` — how the value is used: where it starts, what a use makes of it, which uses are
  final.
* `Ledger`, `Protocol.Run` — where the value is, with the uses so far, and how that comes about.
* `Protocol.Placed` — the three places it may be in.

## Main results

* `Protocol.Run.placed` — the value is in one place.
* `Protocol.Run.exclusive`, `Protocol.Run.final_last` — **one holder at a time, and none after a
  final use.**
* `Protocol.Run.value` — the rule for what holds of the value, from the uses in order.
-/

namespace Lease

variable {V U R : Type*}

/-- How a value is used. -/
structure Protocol (V U R : Type*) where
  /-- The value at first. -/
  initial : V
  /-- What taking it for a use makes of it. -/
  use : U → V → V
  /-- What a use may settle with, and what it makes of the value. -/
  settle : U → V → R → V → Prop
  /-- The uses that keep it. -/
  final : U → Prop

/-- Where the value is, and the uses so far. -/
structure Ledger (V U R : Type*) where
  /-- The cell. -/
  cell : Option V
  /-- What each task holds, and for which use. -/
  held : ℕ → Option (U × V)
  /-- What final uses kept. -/
  spent : List V
  /-- Who took the value, and for which use, in order. -/
  takes : List (ℕ × U)
  /-- Who settled, and with what, in order. -/
  settles : List (ℕ × R)

/-- The value, wherever it is. -/
def Ledger.Has (L : Ledger V U R) (v : V) : Prop :=
  L.cell = some v ∨ (∃ i u, L.held i = some (u, v)) ∨ v ∈ L.spent

namespace Protocol

variable {P : Protocol V U R} {L : Ledger V U R}

/-- The ledgers that come about. -/
inductive Run (P : Protocol V U R) : Ledger V U R → Prop
  /-- The value is in the cell. -/
  | start : Run P ⟨some P.initial, fun _ => none, [], [], []⟩
  /-- A task takes it. -/
  | take {cell held spent takes settles v} (i : ℕ) (u : U) :
      Run P ⟨cell, held, spent, takes, settles⟩ → cell = some v →
      Run P ⟨none, Function.update held i (some (u, P.use u v)), spent, takes ++ [(i, u)], settles⟩
  /-- The holder settles, and puts it back. -/
  | restore {cell held spent takes settles u v r v'} (i : ℕ) :
      Run P ⟨cell, held, spent, takes, settles⟩ → held i = some (u, v) → ¬ P.final u →
      P.settle u v r v' →
      Run P ⟨some v', Function.update held i none, spent, takes, settles ++ [(i, r)]⟩
  /-- The holder settles, and keeps it. -/
  | spend {cell held spent takes settles u v r v'} (i : ℕ) :
      Run P ⟨cell, held, spent, takes, settles⟩ → held i = some (u, v) → P.final u →
      P.settle u v r v' →
      Run P ⟨cell, Function.update held i none, spent ++ [v'], takes, settles ++ [(i, r)]⟩

/-- The uses that are not final, and have settled. -/
def Settled (P : Protocol V U R) (takes : List (ℕ × U)) (settles : List (ℕ × R)) : Prop :=
  takes.map Prod.fst = settles.map Prod.fst ∧ ∀ t ∈ takes, ¬ P.final t.2

/-- The places of the value. -/
inductive Placed (P : Protocol V U R) : Ledger V U R → Prop
  /-- In the cell. -/
  | free {takes settles} (v : V) (h : P.Settled takes settles) :
      Placed P ⟨some v, fun _ => none, [], takes, settles⟩
  /-- With a task. -/
  | taken {takes settles} (i : ℕ) (u : U) (v : V) (h : P.Settled takes settles) :
      Placed P ⟨none, Function.update (fun _ => none) i (some (u, v)), [], takes ++ [(i, u)],
        settles⟩
  /-- Used up. -/
  | spent {takes settles} (i : ℕ) (u : U) (r : R) (v : V) (hu : P.final u)
      (h : P.Settled takes settles) :
      Placed P ⟨none, fun _ => none, [v], takes ++ [(i, u)], settles ++ [(i, r)]⟩

/-- A task that holds something is the one that holds the value. -/
theorem update_eq_some {i j : ℕ} {x y : U × V}
    (h : Function.update (fun _ => none) i (some x) j = some y) : j = i ∧ y = x := by
  by_cases hj : j = i
  · subst hj
    rw [Function.update_self] at h
    exact ⟨rfl, (Option.some.inj h).symm⟩
  · rw [Function.update_of_ne hj] at h
    cases h

theorem update_none (i : ℕ) (x : Option (U × V)) :
    Function.update (Function.update (fun _ => none) i x) i none = fun _ => none := by
  rw [Function.update_idem, Function.update_eq_self_iff]

/-- **The value is in one place.** -/
theorem Run.placed (h : P.Run L) : P.Placed L := by
  induction h with
  | start => exact .free _ ⟨rfl, fun t ht => absurd ht List.not_mem_nil⟩
  | take i u _ hcell ih =>
    cases ih with
    | free v hs => exact .taken i u _ hs
    | taken => cases hcell
    | spent => cases hcell
  | restore i _ hheld hu _ ih =>
    cases ih with
    | free => cases hheld
    | taken k w v hs =>
      -- the task that settles is the one that holds the value
      obtain ⟨rfl, hx⟩ := update_eq_some hheld
      cases hx
      rw [update_none]
      refine .free _ ⟨by simp [hs.1], ?_⟩
      intro t ht
      rcases List.mem_append.1 ht with ht | ht
      · exact hs.2 t ht
      · rw [List.mem_singleton.1 ht]
        exact hu
    | spent => cases hheld
  | spend i _ hheld hu _ ih =>
    cases ih with
    | free => cases hheld
    | taken k w v hs =>
      obtain ⟨rfl, hx⟩ := update_eq_some hheld
      cases hx
      rw [update_none]
      exact .spent i _ _ _ hu hs
    | spent => cases hheld

/-- **One task holds the value at a time**, and then the cell is empty. -/
theorem Run.exclusive (h : P.Run L) {i : ℕ} {x : U × V} (hi : L.held i = some x) :
    L.cell = none ∧ L.spent = [] ∧ ∀ j y, L.held j = some y → j = i := by
  cases h.placed with
  | free => cases hi
  | taken k u v hs =>
    obtain ⟨rfl, -⟩ := update_eq_some hi
    exact ⟨rfl, rfl, fun j y hj => (update_eq_some hj).1⟩
  | spent => cases hi

/-- While the value is in the cell, no one holds it. -/
theorem Run.free (h : P.Run L) {v : V} (hcell : L.cell = some v) :
    L.held = (fun _ => none) ∧ L.spent = [] := by
  cases h.placed with
  | free => exact ⟨rfl, rfl⟩
  | taken => cases hcell
  | spent => cases hcell

theorem Settled.after_eq_nil {takes before after : List (ℕ × U)} {settles : List (ℕ × R)}
    {t x : ℕ × U} (hs : P.Settled takes settles) (htakes : takes ++ [x] = before ++ t :: after)
    (ht : P.final t.2) : after = [] := by
  rcases List.eq_nil_or_concat after with hnil | ⟨front, last, rfl⟩
  · exact hnil
  · rw [List.concat_eq_append, ← List.cons_append, ← List.append_assoc] at htakes
    have hmem : t ∈ takes := by
      rw [(List.append_inj' htakes rfl).1]
      exact List.mem_append_right _ List.mem_cons_self
    exact absurd ht (hs.2 t hmem)

/-- **A final use is the last**, and leaves the cell empty. -/
theorem Run.final_last (h : P.Run L) {before after : List (ℕ × U)} {t : ℕ × U}
    (htakes : L.takes = before ++ t :: after) (ht : P.final t.2) :
    after = [] ∧ L.cell = none := by
  cases h.placed with
  | free v hs =>
    -- whatever was put back was not for a final use
    refine absurd ht (hs.2 t ?_)
    dsimp only at htakes
    rw [htakes]
    exact List.mem_append_right _ List.mem_cons_self
  | taken i u v hs => exact ⟨hs.after_eq_nil htakes ht, rfl⟩
  | spent i u r v hu hs => exact ⟨hs.after_eq_nil htakes ht, rfl⟩

/-- Uses settle in the order they start in. -/
theorem Run.settles_prefix (h : P.Run L) :
    L.settles.map Prod.fst <+: L.takes.map Prod.fst := by
  cases h.placed with
  | free v hs => rw [hs.1]
  | taken i u v hs =>
    rw [List.map_append, hs.1]
    exact List.prefix_append _ _
  | spent i u r v hu hs =>
    rw [List.map_append, List.map_append, hs.1]
    exact List.prefix_rfl

/-- The value is somewhere. -/
theorem Run.exists_has (h : P.Run L) : ∃ v, L.Has v := by
  cases h.placed with
  | free v => exact ⟨v, .inl rfl⟩
  | taken i u v =>
    refine ⟨v, .inr (.inl ⟨i, u, ?_⟩)⟩
    dsimp only
    rw [Function.update_self]
  | spent i u r v => exact ⟨v, .inr (.inr (List.mem_singleton_self v))⟩

/-- **What holds of the value**: it holds at first, and uses keep it. -/
theorem Run.value {I : V → List (ℕ × U) → List (ℕ × R) → Prop} (h₀ : I P.initial [] [])
    (htake : ∀ v takes settles i u, I v takes settles → I (P.use u v) (takes ++ [(i, u)]) settles)
    (hsettle : ∀ v takes settles i u r v', I v takes settles → P.settle u v r v' →
      I v' takes (settles ++ [(i, r)]))
    (h : P.Run L) {v : V} (hv : L.Has v) : I v L.takes L.settles := by
  -- by exclusion the value was where the step took it from, and is nowhere else after it
  induction h generalizing v with
  | start =>
    rcases hv with hv | ⟨_, _, hv⟩ | hv
    · exact Option.some.inj hv ▸ h₀
    · cases hv
    · cases hv
  | take i u h hcell ih =>
    obtain ⟨hheld, hspent⟩ := h.free hcell
    rcases hv with hv | ⟨j, w, hv⟩ | hv
    · cases hv
    · dsimp only at hv hheld
      rw [hheld] at hv
      obtain ⟨rfl, hx⟩ := update_eq_some hv
      cases hx
      exact htake _ _ _ _ _ (ih (.inl hcell))
    · exact absurd hv (hspent ▸ List.not_mem_nil)
  | restore i h hheld _ hset ih =>
    obtain ⟨-, hspent, honly⟩ := h.exclusive hheld
    rcases hv with hv | ⟨j, w, hv⟩ | hv
    · cases hv
      exact hsettle _ _ _ _ _ _ _ (ih (.inr (.inl ⟨i, _, hheld⟩))) hset
    · dsimp only at hv honly
      by_cases hj : j = i
      · rw [hj, Function.update_self] at hv
        cases hv
      · rw [Function.update_of_ne hj] at hv
        exact absurd (honly j _ hv) hj
    · exact absurd hv (hspent ▸ List.not_mem_nil)
  | spend i h hheld _ hset ih =>
    obtain ⟨hcell, hspent, honly⟩ := h.exclusive hheld
    rcases hv with hv | ⟨j, w, hv⟩ | hv
    · dsimp only at hv hcell
      rw [hcell] at hv
      cases hv
    · dsimp only at hv honly
      by_cases hj : j = i
      · rw [hj, Function.update_self] at hv
        cases hv
      · rw [Function.update_of_ne hj] at hv
        exact absurd (honly j _ hv) hj
    · dsimp only at hv hspent
      rw [hspent, List.nil_append, List.mem_singleton] at hv
      subst hv
      exact hsettle _ _ _ _ _ _ _ (ih (.inr (.inl ⟨i, _, hheld⟩))) hset

end Protocol

/-! ### A list of tasks -/

section

variable {T X : Type*} {holds : T → Option X} {tasks : List T}

/-- What each task of a list holds. -/
def heldBy (holds : T → Option X) (tasks : List T) (i : ℕ) : Option X := tasks[i]?.bind holds

theorem heldBy_of_getElem? {i : ℕ} {t : T} (h : tasks[i]? = some t) :
    heldBy holds tasks i = holds t := by
  rw [heldBy, h]
  rfl

/-- One task changes what it holds. -/
theorem heldBy_set {i : ℕ} {old : T} (h : tasks[i]? = some old) (t : T) :
    heldBy holds (tasks.set i t) = Function.update (heldBy holds tasks) i (holds t) := by
  obtain ⟨hi, -⟩ := List.getElem?_eq_some_iff.1 h
  funext j
  by_cases hj : j = i
  · subst hj
    rw [heldBy, List.getElem?_set_self hi, Function.update_self]
    rfl
  · rw [heldBy, List.getElem?_set_ne (Ne.symm hj), Function.update_of_ne hj]
    rfl

theorem heldBy_set_self {i : ℕ} {old : T} (h : tasks[i]? = some old) (t : T) :
    heldBy holds (tasks.set i t) i = holds t := by
  rw [heldBy_set h, Function.update_self]

/-- A task changes nothing of what it holds. -/
theorem heldBy_set_same {i : ℕ} {old t : T} (h : tasks[i]? = some old) (hsame : holds t = holds old) :
    heldBy holds (tasks.set i t) = heldBy holds tasks := by
  rw [heldBy_set h, hsame, Function.update_eq_self_iff, heldBy_of_getElem? h]

/-- A new task holds nothing. -/
theorem heldBy_concat {t : T} (ht : holds t = none) :
    heldBy holds (tasks ++ [t]) = heldBy holds tasks := by
  funext j
  rcases lt_trichotomy j tasks.length with hj | rfl | hj
  · rw [heldBy, List.getElem?_append_left hj]
    rfl
  · simp [heldBy, ht]
  · have hnone : (tasks ++ [t])[j]? = none := by
      rw [List.getElem?_eq_none_iff, List.length_append, List.length_singleton]
      omega
    rw [heldBy, heldBy, hnone, List.getElem?_eq_none_iff.2 hj.le]

/-- A new task changes nothing of what the others hold. -/
theorem heldBy_concat_of_some {t : T} {i : ℕ} {x : X} (h : heldBy holds tasks i = some x) :
    heldBy holds (tasks ++ [t]) i = some x := by
  obtain ⟨old, hold, hx⟩ := Option.bind_eq_some_iff.1 h
  obtain ⟨hi, -⟩ := List.getElem?_eq_some_iff.1 hold
  rw [heldBy, List.getElem?_append_left hi, hold]
  exact hx

end

end Lease
