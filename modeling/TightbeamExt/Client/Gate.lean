import Mathlib.Data.List.Basic
import Mathlib.Data.List.GetD
import Mathlib.Tactic.Common
import TightbeamExt.Base.Log

/-!
# The client's topic gate

`TopicGate` orders the updates of one topic by their stamps.  It remembers the
last committed stamp, and before there is one the lowest stamp it saw without a
delivery.  Stamps are `bigint`s on the client, so they do not wrap.

`deliverUpdate` is the manager's use of the gate when nothing else runs between
its awaits: classify, report a gap, deliver, and commit the stamp or witness it.

## Main definitions

* `TopicGate`, `classify`, `advance`, `witness`, `expected`, `reset`.
* `GapReport`, `GapReport.Covers` — one report and the stamps of its range.
* `deliverUpdate` — one update through the gate.
* `Baseline` — what gate and reports say after stamps that never decrease.

## Main results

* `baseline_deliverUpdate` — one more delivered update: **the reports cover exactly
  the stamps missing between two delivered ones**.
-/

namespace TightbeamExt
namespace Client

/-- How one update relates to the committed sequence. -/
inductive GateVerdict
  /-- The first update, or the next dense stamp. -/
  | fresh
  /-- At or behind the baseline. -/
  | stale
  /-- Ahead by more than one. -/
  | gap
  deriving DecidableEq, Repr

/-- Classifies update stamps for one topic. -/
structure TopicGate where
  /-- The last committed stamp. -/
  last : Option ℕ
  /-- The lowest stamp seen without a delivery before any was committed. -/
  witnessed : Option ℕ
  deriving DecidableEq, Repr

namespace TopicGate

/-- A gate that has seen nothing. -/
def new : TopicGate := ⟨none, none⟩

/-- Classify `order` against the baseline without moving it. -/
def classify (g : TopicGate) (order : ℕ) : GateVerdict :=
  match g.last with
  | none =>
      match g.witnessed with
      | none => .fresh
      | some w => if w < order then .gap else .fresh
  | some last =>
      if order ≤ last then .stale
      else if order = last + 1 then .fresh
      else .gap

/-- Commit `order` as the delivered baseline. -/
def advance (g : TopicGate) (order : ℕ) : TopicGate :=
  match g.last with
  | none => ⟨some order, none⟩
  | some last => ⟨some (if last < order then order else last), none⟩

/-- Record a stamp seen before any baseline exists. -/
def witness (g : TopicGate) (order : ℕ) : TopicGate :=
  match g.last with
  | some _ => g
  | none =>
      match g.witnessed with
      | none => { g with witnessed := some order }
      | some w => if order < w then { g with witnessed := some order } else g

/-- The next stamp that would classify as `fresh`. -/
def expected (g : TopicGate) : Option ℕ :=
  match g.last with
  | some last => some (last + 1)
  | none => g.witnessed

/-- Clear the baseline and any witnessed stamp. -/
def reset (_ : TopicGate) : TopicGate := new

end TopicGate

/-! ### One update through the gate -/

/-- What a gap observer is told. -/
structure GapReport where
  /-- The stamp the gate waited for. -/
  expected : ℕ
  /-- The stamp that arrived. -/
  received : ℕ
  deriving DecidableEq, Repr

/-- The range `[expected, received)` contains the stamp. -/
def GapReport.Covers (r : GapReport) (d : ℕ) : Prop := r.expected ≤ d ∧ d < r.received

instance (r : GapReport) (d : ℕ) : Decidable (r.Covers d) :=
  inferInstanceAs (Decidable (_ ∧ _))

/-- The report of `deliverUpdate`: only a gap with a known expected stamp is
reported. -/
def gapReport (g : TopicGate) (order : ℕ) : Option GapReport :=
  match g.classify order, g.expected with
  | .gap, some e => some ⟨e, order⟩
  | _, _ => none

/-- `deliverUpdate` with nothing else running between its awaits; `delivered` says
whether decode and handler succeeded. -/
def deliverUpdate (delivered : Bool) (g : TopicGate) (order : ℕ) : TopicGate :=
  match g.classify order with
  | .stale => g
  | _ => if delivered then g.advance order else g.witness order

/-! ### What the reports say -/

/-- Gate and reports after the delivered stamps `orders`. -/
structure Baseline (g : TopicGate) (gaps : List GapReport) (orders : List ℕ) : Prop where
  /-- The gate stands at the last of them. -/
  last : g.last = orders.getLast?
  /-- Nothing is left undelivered. -/
  witnessed : g.witnessed = none
  /-- The stamps never decrease. -/
  sorted : orders.Pairwise (· ≤ ·)
  /-- Reported is what is missing between two of them. -/
  covered : ∀ d, (∃ r ∈ gaps, r.Covers d) ↔
    d ∉ orders ∧ (∃ a ∈ orders, a < d) ∧ ∃ b ∈ orders, d < b

theorem baseline_new : Baseline TopicGate.new [] [] where
  last := rfl
  witnessed := rfl
  sorted := List.Pairwise.nil
  covered := by simp

namespace Baseline

variable {g : TopicGate} {gaps : List GapReport} {orders : List ℕ} {order last : ℕ}

/-- The last of them is the highest. -/
theorem le_last (h : Baseline g gaps orders) (hlast : g.last = some last) :
    ∀ a ∈ orders, a ≤ last := by
  rw [h.last] at hlast
  intro a ha
  rcases List.rel_or_eq_of_getLast h.sorted hlast a ha with hle | heq
  · exact hle
  · exact Nat.le_of_eq heq

theorem last_mem (h : Baseline g gaps orders) (hlast : g.last = some last) : last ∈ orders := by
  rw [h.last] at hlast
  exact List.mem_of_getLast? hlast

/-- A repeated stamp is stale and opens no gap. -/
theorem covered_repeat (h : Baseline g gaps orders) (hlast : g.last = some order) (d : ℕ) :
    (∃ r ∈ gaps, r.Covers d) ↔
      d ∉ orders ++ [order] ∧ (∃ a ∈ orders ++ [order], a < d) ∧ ∃ b ∈ orders ++ [order], d < b := by
  have hmem : ∀ x, x ∈ orders ++ [order] ↔ x ∈ orders := by
    intro x
    rw [List.mem_append, List.mem_singleton]
    constructor
    · rintro (hx | rfl)
      · exact hx
      · exact h.last_mem hlast
    · exact Or.inl
  simp only [hmem]
  exact h.covered d

/-- A higher stamp opens the range from the baseline up to it. -/
theorem covered_ahead (h : Baseline g gaps orders) (hlast : g.last = some last)
    (hlt : last < order) (d : ℕ) :
    ((∃ r ∈ gaps, r.Covers d) ∨ (last < d ∧ d < order)) ↔
      d ∉ orders ++ [order] ∧ (∃ a ∈ orders ++ [order], a < d) ∧ ∃ b ∈ orders ++ [order], d < b := by
  have hle := h.le_last hlast
  have hmem := h.last_mem hlast
  rw [h.covered d]
  simp only [List.mem_append, List.mem_singleton]
  constructor
  · rintro (⟨hd, ⟨a, ha, had⟩, b, hb, hdb⟩ | ⟨hld, hdo⟩)
    · have hbl := hle b hb
      exact ⟨by rintro (hx | rfl) <;> [exact hd hx; omega], ⟨a, Or.inl ha, had⟩, b, Or.inl hb, hdb⟩
    · refine ⟨?_, ⟨last, Or.inl hmem, hld⟩, order, Or.inr rfl, hdo⟩
      rintro (hx | rfl)
      · have := hle d hx
        omega
      · omega
  · rintro ⟨hd, ⟨a, ha, had⟩, b, hb, hdb⟩
    push Not at hd
    by_cases hld : last < d
    · -- beyond the baseline only the new stamp lies above
      rcases hb with hb | rfl
      · have := hle b hb
        omega
      · exact Or.inr ⟨hld, hdb⟩
    · -- below it the old reports already spoke
      have hdl : d ≠ last := by
        rintro rfl
        exact hd.1 hmem
      refine Or.inl ⟨hd.1, ⟨a, ?_, had⟩, last, hmem, by omega⟩
      rcases ha with ha | rfl
      · exact ha
      · omega

/-- The first stamp opens nothing. -/
theorem covered_first (h : Baseline g gaps []) (d : ℕ) :
    (∃ r ∈ gaps, r.Covers d) ↔ d ∉ [order] ∧ (∃ a ∈ [order], a < d) ∧ ∃ b ∈ [order], d < b := by
  rw [h.covered d]
  simp only [List.not_mem_nil, List.mem_singleton, false_and, exists_false, and_false, exists_eq_left,
    false_iff]
  omega

end Baseline

/-- The stamps of the reports so far and of the new one, if there is one. -/
theorem exists_covers_append {gaps : List GapReport} {r : Option GapReport} {d : ℕ} :
    (∃ x ∈ gaps ++ r.toList, x.Covers d) ↔ (∃ x ∈ gaps, x.Covers d) ∨ ∃ x ∈ r, x.Covers d := by
  simp only [List.mem_append, Option.mem_toList, or_and_right, exists_or]
  rfl

/-- A stamp above the baseline is committed. -/
theorem deliverUpdate_of_lt {g : TopicGate} {last order : ℕ} (hlast : g.last = some last)
    (hlt : last < order) : deliverUpdate true g order = ⟨some order, none⟩ := by
  have hstale : ¬ order ≤ last := by omega
  unfold deliverUpdate
  simp only [TopicGate.classify, hlast, if_neg hstale]
  by_cases hnext : order = last + 1
  · simp [hnext, TopicGate.advance, hlast]
  · simp [hnext, TopicGate.advance, hlast, hlt]

/-- And its report covers what it jumped over. -/
theorem covers_gapReport_of_lt {g : TopicGate} {last order : ℕ} (hlast : g.last = some last)
    (hlt : last < order) (d : ℕ) :
    (∃ r ∈ gapReport g order, r.Covers d) ↔ last < d ∧ d < order := by
  by_cases hnext : order = last + 1
  · have hclass : g.classify order = .fresh := by simp [TopicGate.classify, hlast, hnext]
    simp only [gapReport, hclass, reduceCtorEq, Option.mem_def, false_and, exists_false, false_iff]
    omega
  · have hstale : ¬ order ≤ last := by omega
    have hclass : g.classify order = .gap := by
      simp [TopicGate.classify, hlast, hstale, hnext]
    have hexp : g.expected = some (last + 1) := by simp [TopicGate.expected, hlast]
    simp only [gapReport, hclass, hexp, Option.mem_def, Option.some.injEq, exists_eq_left',
      GapReport.Covers]
    omega

/-- **One more delivered update.**  Gate and reports stay in step with the
delivered stamps as long as these never decrease. -/
theorem baseline_deliverUpdate {g : TopicGate} {gaps : List GapReport} {orders : List ℕ}
    {order : ℕ} (h : Baseline g gaps orders) (hle : ∀ a ∈ orders, a ≤ order) :
    Baseline (deliverUpdate true g order) (gaps ++ (gapReport g order).toList)
      (orders ++ [order]) := by
  have hsorted := List.pairwise_concat h.sorted hle
  cases hlast : g.last with
  | none =>
    have hnil : orders = [] := by
      rw [h.last] at hlast
      exact List.getLast?_eq_none_iff.mp hlast
    subst hnil
    have hclass : g.classify order = .fresh := by simp [TopicGate.classify, hlast, h.witnessed]
    have hreport : gapReport g order = none := by simp [gapReport, hclass]
    refine ⟨?_, ?_, hsorted, ?_⟩
    · simp [deliverUpdate, hclass, TopicGate.advance, hlast]
    · simp [deliverUpdate, hclass, TopicGate.advance, hlast]
    · intro d
      rw [hreport]
      simpa using h.covered_first d
  | some last =>
    have hmax := hle last (h.last_mem hlast)
    rcases Nat.eq_or_lt_of_le hmax with rfl | hlt
    · -- the stamps never decrease, so a stale one repeats the baseline
      have hclass : g.classify last = .stale := by simp [TopicGate.classify, hlast]
      have hreport : gapReport g last = none := by simp [gapReport, hclass]
      refine ⟨?_, ?_, hsorted, ?_⟩
      · simp [deliverUpdate, hclass, hlast]
      · simp [deliverUpdate, hclass, h.witnessed]
      · intro d
        rw [hreport]
        simpa using h.covered_repeat hlast d
    · refine ⟨?_, ?_, hsorted, ?_⟩
      · simp [deliverUpdate_of_lt hlast hlt]
      · simp [deliverUpdate_of_lt hlast hlt]
      · intro d
        rw [exists_covers_append, covers_gapReport_of_lt hlast hlt]
        exact h.covered_ahead hlast hlt d

end Client
end TightbeamExt
