import Mathlib.Data.List.Induction
import TightbeamExt.Client.Gate

/-!
# Every stamp a gate sees is delivered or revealed

Between two resets one gate takes any arrivals: stamps repeat, come out of order,
and a delivery may fail.  Two registers remember all of it.  Once there is a
baseline the next delivery names everything it jumps over; before there is one the
witness keeps the lowest stamp that failed, and the first delivery names that.

## Main definitions

* `Arrival` — one update at the gate, and whether its delivery succeeds.
* `gateAfter`, `deliveredStamps` — the gate and the delivered stamps after arrivals.
* `Remembers` — what the two registers say about the arrivals so far.

## Main results

* `deliverUpdate_cases` — all that one arrival can do to the gate.
* `remembers_gateAfter` — the registers remember any arrivals.
* `delivered_or_revealed` — **delivered stamps rise, and a baseline never moves past
  a stamp that was seen and lost without a report that covers it**.
-/

namespace TightbeamExt
namespace Client

/-- One update of the topic. -/
structure Arrival where
  /-- Its stamp. -/
  order : ℕ
  /-- Decode and handler succeed, should the gate let it through. -/
  delivered : Bool
  deriving DecidableEq, Repr

/-- The gate after one arrival. -/
def arrive (g : TopicGate) (a : Arrival) : TopicGate := deliverUpdate a.delivered g a.order

/-- The stamp an arrival delivers, if it delivers one. -/
def deliveredStamp (g : TopicGate) (a : Arrival) : Option ℕ :=
  if g.classify a.order ≠ .stale ∧ a.delivered then some a.order else none

/-- The gate after the arrivals, in order. -/
def gateAfter (g : TopicGate) (arrivals : List Arrival) : TopicGate := arrivals.foldl arrive g

/-- The stamps delivered on the way. -/
def deliveredStamps : TopicGate → List Arrival → List ℕ
  | _, [] => []
  | g, a :: arrivals => (deliveredStamp g a).toList ++ deliveredStamps (arrive g a) arrivals

/-- The stamps seen. -/
def seenStamps (arrivals : List Arrival) : List ℕ := arrivals.map Arrival.order

@[simp] theorem gateAfter_nil (g : TopicGate) : gateAfter g [] = g := rfl

theorem gateAfter_append (g : TopicGate) (arrivals : List Arrival) (a : Arrival) :
    gateAfter g (arrivals ++ [a]) = arrive (gateAfter g arrivals) a := by
  simp [gateAfter]

theorem deliveredStamps_append (g : TopicGate) (arrivals : List Arrival) (a : Arrival) :
    deliveredStamps g (arrivals ++ [a]) =
      deliveredStamps g arrivals ++ (deliveredStamp (gateAfter g arrivals) a).toList := by
  induction arrivals generalizing g with
  | nil => simp [deliveredStamps]
  | cons b arrivals ih =>
    rw [List.cons_append, deliveredStamps, ih, deliveredStamps, List.append_assoc]
    rfl

/-! ### One arrival -/

section Arrival

variable {g : TopicGate} {a : Arrival}

/-- Stale is what is at or behind the baseline, and nothing before there is one. -/
theorem classify_eq_stale {order : ℕ} :
    g.classify order = .stale ↔ ∃ last, g.last = some last ∧ order ≤ last := by
  unfold TopicGate.classify
  cases hlast : g.last with
  | none =>
    cases hw : g.witnessed with
    | none => simp
    | some w => by_cases h : w < order <;> simp [h]
  | some last =>
    by_cases hle : order ≤ last
    · simp [hle]
    · by_cases hnext : order = last + 1 <;> simp [hle, hnext]

/-- A loss before any baseline lowers the witness to it. -/
theorem witness_of_none {order : ℕ} (hlast : g.last = none) :
    g.witness order = ⟨none, some (g.witnessed.elim order (min order))⟩ := by
  obtain ⟨last, witnessed⟩ := g
  subst hlast
  cases witnessed with
  | none => rfl
  | some w =>
    by_cases hlt : order < w
    · simp [TopicGate.witness, hlt, Nat.min_eq_left (Nat.le_of_lt hlt)]
    · simp [TopicGate.witness, hlt, Nat.min_eq_right (Nat.not_lt.mp hlt)]

/-- A stamp further than the next is a gap and is reported from the next one on. -/
theorem gap_of_jump {last n : ℕ} (hlast : g.last = some last) (hjump : last + 1 < n) :
    g.classify n = .gap ∧ gapReport g n = some ⟨last + 1, n⟩ := by
  have hgap : g.classify n = .gap := by
    have hstale : ¬ n ≤ last := by omega
    have hnext : n ≠ last + 1 := by omega
    simp [TopicGate.classify, hlast, hstale, hnext]
  have hexp : g.expected = some (last + 1) := by simp [TopicGate.expected, hlast]
  exact ⟨hgap, by simp [gapReport, hgap, hexp]⟩

/-- The stamp the gate waits for is fresh. -/
theorem classify_expected {e : ℕ} (hexp : g.expected = some e) : g.classify e = .fresh := by
  unfold TopicGate.expected at hexp
  cases hlast : g.last with
  | none =>
    simp only [hlast] at hexp
    simp [TopicGate.classify, hlast, hexp]
  | some last =>
    simp only [hlast, Option.some.injEq] at hexp
    subst hexp
    simp [TopicGate.classify, hlast]

/-- **All that one arrival can do.**  It is stale, or delivered and the new baseline,
or lost behind a baseline, or lost before there is one. -/
theorem deliverUpdate_cases (g : TopicGate) (a : Arrival) :
    (∃ last, g.last = some last ∧ a.order ≤ last ∧ arrive g a = g ∧ deliveredStamp g a = none) ∨
    ((∀ last ∈ g.last, last < a.order) ∧ arrive g a = ⟨some a.order, none⟩ ∧
      deliveredStamp g a = some a.order) ∨
    (∃ last, g.last = some last ∧ last < a.order ∧ arrive g a = g ∧ deliveredStamp g a = none) ∨
    (g.last = none ∧ deliveredStamp g a = none ∧
      arrive g a = ⟨none, some (g.witnessed.elim a.order (min a.order))⟩) := by
  by_cases hstale : g.classify a.order = .stale
  · obtain ⟨last, hlast, hle⟩ := classify_eq_stale.mp hstale
    refine Or.inl ⟨last, hlast, hle, ?_, ?_⟩
    · simp [arrive, deliverUpdate, hstale]
    · simp [deliveredStamp, hstale]
  · have harrive : arrive g a =
        if a.delivered then g.advance a.order else g.witness a.order := by
      unfold arrive deliverUpdate
      split
      · next h => exact absurd h hstale
      · rfl
    have hahead : ∀ last ∈ g.last, last < a.order := by
      intro last hlast
      by_contra hle
      exact hstale (classify_eq_stale.mpr ⟨last, hlast, by omega⟩)
    rw [harrive]
    cases hd : a.delivered with
    | true =>
      refine Or.inr (Or.inl ⟨hahead, ?_, by simp [deliveredStamp, hstale, hd]⟩)
      cases hlast : g.last with
      | none => simp [TopicGate.advance, hlast]
      | some last => simp [TopicGate.advance, hlast, hahead last hlast]
    | false =>
      have hnone : deliveredStamp g a = none := by simp [deliveredStamp, hd]
      refine Or.inr (Or.inr ?_)
      cases hlast : g.last with
      | some last =>
        exact Or.inl ⟨last, rfl, hahead last hlast, by simp [TopicGate.witness, hlast], hnone⟩
      | none =>
        exact Or.inr ⟨rfl, hnone, witness_of_none hlast⟩

end Arrival

/-! ### Any arrivals -/

/-- What the registers say of the stamps `seen` and of those `delivered`. -/
structure Remembers (g : TopicGate) (seen delivered : List ℕ) : Prop where
  /-- The baseline is the last delivered stamp. -/
  last : g.last = delivered.getLast?
  /-- Delivered stamps rise. -/
  rising : delivered.Pairwise (· < ·)
  /-- Before a baseline the witness is at or below every stamp seen. -/
  lowest : g.last = none → ∀ s ∈ seen, ∃ w ∈ g.witnessed, w ≤ s

namespace Remembers

variable {g : TopicGate} {seen delivered : List ℕ} {a : Arrival}

theorem of_reset (g : TopicGate) : Remembers g.reset [] [] where
  last := rfl
  rising := List.Pairwise.nil
  lowest := by simp

/-- The baseline is at or above every delivered stamp. -/
theorem le_last (h : Remembers g seen delivered) {last : ℕ} (hlast : g.last = some last) :
    ∀ s ∈ delivered, s ≤ last := by
  rw [h.last] at hlast
  intro s hs
  rcases List.rel_or_eq_of_getLast h.rising hlast s hs with hlt | heq
  · exact Nat.le_of_lt hlt
  · exact Nat.le_of_eq heq

/-- A stamp above the baseline is above everything delivered. -/
theorem lt_of_ahead (h : Remembers g seen delivered) {order : ℕ}
    (hahead : ∀ last ∈ g.last, last < order) : ∀ s ∈ delivered, s < order := by
  intro s hs
  cases hlast : g.last with
  | none =>
    rw [h.last, List.getLast?_eq_none_iff] at hlast
    rw [hlast] at hs
    cases hs
  | some last => exact Nat.lt_of_le_of_lt (h.le_last hlast s hs) (hahead last hlast)

/-- **One more arrival.** -/
theorem arrive (h : Remembers g seen delivered) (a : Arrival) :
    Remembers (arrive g a) (seen ++ [a.order]) (delivered ++ (deliveredStamp g a).toList) := by
  rcases deliverUpdate_cases g a with ⟨last, hlast, -, harrive, hnone⟩ |
    ⟨hahead, harrive, hsome⟩ | ⟨last, hlast, -, harrive, hnone⟩ | ⟨hlast, hnone, harrive⟩
  · rw [harrive, hnone, Option.toList_none, List.append_nil]
    exact ⟨h.last, h.rising, by simp [hlast]⟩
  · rw [harrive, hsome, Option.toList_some]
    exact ⟨by simp, List.pairwise_concat h.rising (h.lt_of_ahead hahead), by simp⟩
  · rw [harrive, hnone, Option.toList_none, List.append_nil]
    exact ⟨h.last, h.rising, by simp [hlast]⟩
  · -- lost before any baseline: the witness goes down to it, or already was below it
    rw [harrive, hnone, Option.toList_none, List.append_nil]
    refine ⟨hlast.symm.trans h.last, h.rising, ?_⟩
    intro _ s hs
    refine ⟨_, rfl, ?_⟩
    rcases List.mem_append.mp hs with hs | hs
    · obtain ⟨w, hw, hle⟩ := h.lowest hlast s hs
      rw [Option.mem_def.mp hw]
      exact Nat.le_trans (Nat.min_le_right _ _) hle
    · rw [List.mem_singleton.mp hs]
      cases g.witnessed with
      | none => exact Nat.le_refl _
      | some w => exact Nat.min_le_left _ _

/-- A delivery that jumps over a stamp seen and lost is a gap, and its report starts
at or below that stamp. -/
theorem revealed (h : Remembers g seen delivered) {s n : ℕ} (hs : s ∈ seen) (hsn : s < n)
    (habove : ∀ last ∈ g.last, last < s) :
    g.classify n = .gap ∧ ∃ r ∈ gapReport g n, r.expected ≤ s ∧ r.received = n := by
  cases hlast : g.last with
  | none =>
    obtain ⟨w, hw, hle⟩ := h.lowest hlast s hs
    have hlt : w < n := by omega
    have hgap : g.classify n = .gap := by
      simp [TopicGate.classify, hlast, Option.mem_def.mp hw, hlt]
    have hexp : g.expected = some w := by simp [TopicGate.expected, hlast, Option.mem_def.mp hw]
    exact ⟨hgap, ⟨w, n⟩, by simp [gapReport, hgap, hexp], hle, rfl⟩
  | some last =>
    have hls := habove last hlast
    obtain ⟨hgap, hreport⟩ := gap_of_jump hlast (n := n) (by omega)
    exact ⟨hgap, ⟨last + 1, n⟩, hreport, hls, rfl⟩

end Remembers

/-- **The registers remember any arrivals.** -/
theorem remembers_gateAfter (g : TopicGate) (arrivals : List Arrival) :
    Remembers (gateAfter g.reset arrivals) (seenStamps arrivals)
      (deliveredStamps g.reset arrivals) := by
  induction arrivals using List.reverseRecOn with
  | nil => exact Remembers.of_reset g
  | append_singleton arrivals a ih =>
    rw [gateAfter_append, deliveredStamps_append, seenStamps, List.map_append]
    exact ih.arrive a

/-- The arrival moves the baseline to `n`. -/
def MovesTo (g : TopicGate) (a : Arrival) (n : ℕ) : Prop :=
  (arrive g a).last = some n ∧ g.last ≠ some n

instance (g : TopicGate) (a : Arrival) (n : ℕ) : Decidable (MovesTo g a n) :=
  inferInstanceAs (Decidable (_ ∧ _))

/-- A baseline moves to the stamp that arrived. -/
theorem order_eq_of_movesTo {g : TopicGate} {a : Arrival} {n : ℕ} (h : MovesTo g a n) :
    a.order = n := by
  obtain ⟨hafter, hbefore⟩ := h
  rcases deliverUpdate_cases g a with ⟨_, -, -, harrive, -⟩ | ⟨-, harrive, -⟩ |
    ⟨_, -, -, harrive, -⟩ | ⟨-, -, harrive⟩
  · exact absurd (harrive ▸ hafter) hbefore
  · rw [harrive, Option.some.injEq] at hafter
    exact hafter
  · exact absurd (harrive ▸ hafter) hbefore
  · rw [harrive] at hafter
    cases hafter

/-- **Every stamp seen is delivered or revealed.**  After any arrivals since a reset,
delivered stamps rise; an arrival that moves the baseline past a stamp seen and not
delivered is a gap reported from that stamp or below; one that jumps is a gap reported
from the stamp after the old baseline; and the stamp waited for is fresh. -/
theorem delivered_or_revealed (g₀ : TopicGate) (arrivals : List Arrival) :
    (deliveredStamps g₀.reset arrivals).Pairwise (· < ·) ∧
    (∀ a n s, MovesTo (gateAfter g₀.reset arrivals) a n → s < n →
      (∀ last ∈ (gateAfter g₀.reset arrivals).last, last < s) →
      s ∈ seenStamps arrivals → s ∉ deliveredStamps g₀.reset arrivals →
      a.order = n ∧ (gateAfter g₀.reset arrivals).classify a.order = .gap ∧
        ∃ r ∈ gapReport (gateAfter g₀.reset arrivals) a.order,
          r.expected ≤ s ∧ r.received = n) ∧
    (∀ a l n, (gateAfter g₀.reset arrivals).last = some l →
      MovesTo (gateAfter g₀.reset arrivals) a n → l + 1 < n →
      a.order = n ∧ (gateAfter g₀.reset arrivals).classify a.order = .gap ∧
        gapReport (gateAfter g₀.reset arrivals) a.order = some ⟨l + 1, n⟩) ∧
    ∀ e, (gateAfter g₀.reset arrivals).expected = some e →
      (gateAfter g₀.reset arrivals).classify e = .fresh := by
  have hrem := remembers_gateAfter g₀ arrivals
  refine ⟨hrem.rising, ?_, ?_, fun _ => classify_expected⟩
  · intro a n s hmove hsn habove hseen _
    have horder := order_eq_of_movesTo hmove
    rw [horder]
    exact ⟨rfl, hrem.revealed hseen hsn habove⟩
  · intro a l n hlast hmove hjump
    have horder := order_eq_of_movesTo hmove
    rw [horder]
    exact ⟨rfl, gap_of_jump hlast hjump⟩

-- 7 and 5 fail, so the first delivery, of 9, reports from 5 on
example :
    gapReport (gateAfter TopicGate.new [⟨7, false⟩, ⟨5, false⟩, ⟨8, false⟩]) 9 = some ⟨5, 9⟩ := by
  decide

end Client
end TightbeamExt
