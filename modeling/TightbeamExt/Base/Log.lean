import Mathlib.Data.List.Pairwise
import Mathlib.Tactic.Common

/-!
# Logs in order

A log grows at its end.  What every entry so far has to the new one, every two entries of
the log have to each other, and all of them to the last.

## Main results

* `pairwise_concat` — one more entry.
* `rel_or_eq_of_getLast` — the last entry.
-/

namespace List

variable {α : Type*} {r : α → α → Prop} {log : List α} {x : α}

/-- One more entry keeps the log in order. -/
theorem pairwise_concat (h : log.Pairwise r) (hx : ∀ y ∈ log, r y x) :
    (log ++ [x]).Pairwise r := by
  rw [List.pairwise_append]
  refine ⟨h, List.pairwise_singleton _ _, ?_⟩
  intro y hy z hz
  rw [List.mem_singleton.mp hz]
  exact hx y hy

/-- Every entry is the last one or stands before it. -/
theorem rel_or_eq_of_getLast (h : log.Pairwise r) (hlast : log.getLast? = some x) :
    ∀ y ∈ log, r y x ∨ y = x := by
  obtain ⟨init, rfl⟩ := List.getLast?_eq_some_iff.mp hlast
  intro y hy
  rcases List.mem_append.mp hy with hy | hy
  · exact Or.inl ((List.pairwise_append.mp h).2.2 y hy x (List.mem_singleton_self x))
  · exact Or.inr (List.mem_singleton.mp hy)

end List
