import Mathlib.Data.List.Basic
import Mathlib.Tactic.Common

/-!
# The pull channel

`PullChannel` bridges push delivery and async iteration.  A producer's `put` resolves when
the consumer takes the item, or at once after `finish`; `next` takes the first item, or
waits for one, or is told that the channel is done.

The promises are outside: `put` says whether the item went to a waiting `next`, was queued
or was dropped, and who calls the channel keeps the producers' names with the items.

## Main definitions

* `PullChannel`, `put`, `finish`, `next`.

## Main results

* `next_of_cons`, `put_of_done` — a finished channel drains and takes nothing in.
-/

namespace TightbeamExt
namespace Client

variable {I : Type*}

/-- A single-consumer FIFO whose producers wait for consumption. -/
structure PullChannel (I : Type*) where
  /-- The queued items. -/
  items : List I
  /-- How many `next` calls wait. -/
  takers : ℕ
  /-- `finish` was called. -/
  done : Bool
  deriving DecidableEq

/-- What became of an offered item. -/
inductive Offer
  /-- The channel is done. -/
  | dropped
  /-- A waiting `next` has it. -/
  | handed
  /-- It is queued, and its producer waits. -/
  | parked
  deriving DecidableEq, Repr

/-- What a `next` call gets. -/
inductive Pull (I : Type*)
  /-- An item. -/
  | item (x : I)
  /-- The end of the stream. -/
  | done
  /-- Nothing yet. -/
  | waiting
  deriving DecidableEq

namespace PullChannel

/-- A new channel. -/
def new : PullChannel I := ⟨[], 0, false⟩

/-- Offer one item. -/
def put (x : I) (ch : PullChannel I) : PullChannel I × Offer :=
  if ch.done then (ch, .dropped)
  else
    match ch.takers with
    | n + 1 => ({ ch with takers := n }, .handed)
    | 0 => ({ ch with items := ch.items ++ [x] }, .parked)

/-- End the stream: the waiting calls are told so, queued items stay. -/
def finish (ch : PullChannel I) : PullChannel I := { ch with takers := 0, done := true }

/-- Take the next item. -/
def next (ch : PullChannel I) : PullChannel I × Pull I :=
  match ch.items with
  | x :: rest => ({ ch with items := rest }, .item x)
  | [] => if ch.done then (ch, .done) else ({ ch with takers := ch.takers + 1 }, .waiting)

@[simp] theorem done_finish (ch : PullChannel I) : ch.finish.done = true := rfl

@[simp] theorem items_finish (ch : PullChannel I) : ch.finish.items = ch.items := rfl

@[simp] theorem done_next (ch : PullChannel I) : ch.next.1.done = ch.done := by
  unfold next
  split
  · rfl
  · split <;> rfl

/-- A finished channel takes nothing in. -/
theorem put_of_done {ch : PullChannel I} (h : ch.done = true) (x : I) : ch.put x = (ch, .dropped) := by
  simp [put, h]

/-- What is queued can be taken, finished or not. -/
theorem next_of_cons {ch : PullChannel I} {x : I} {rest : List I} (h : ch.items = x :: rest) :
    ch.next = ({ ch with items := rest }, .item x) := by
  simp [next, h]

/-- The ways of an offered item. -/
theorem put_cases (x : I) (ch : PullChannel I) :
    (ch.done = true ∧ ch.put x = (ch, .dropped)) ∨
      (ch.done = false ∧ ∃ n, ch.takers = n + 1 ∧ ch.put x = ({ ch with takers := n }, .handed)) ∨
      ch.done = false ∧ ch.put x = ({ ch with items := ch.items ++ [x] }, .parked) := by
  cases hd : ch.done with
  | true => exact Or.inl ⟨rfl, put_of_done hd x⟩
  | false =>
    refine Or.inr ?_
    cases ht : ch.takers with
    | zero => exact Or.inr ⟨rfl, by simp [put, hd, ht]⟩
    | succ n => exact Or.inl ⟨rfl, n, rfl, by simp [put, hd, ht]⟩

/-- The ways of a `next` call. -/
theorem next_cases (ch : PullChannel I) :
    (∃ x rest, ch.items = x :: rest ∧ ch.next = ({ ch with items := rest }, .item x)) ∨
      (ch.items = [] ∧ ch.done = true ∧ ch.next = (ch, .done)) ∨
      ch.items = [] ∧ ch.done = false ∧
        ch.next = ({ ch with takers := ch.takers + 1 }, .waiting) := by
  cases hi : ch.items with
  | cons x rest => exact Or.inl ⟨x, rest, rfl, next_of_cons hi⟩
  | nil =>
    refine Or.inr ?_
    cases hd : ch.done with
    | true => exact Or.inl ⟨rfl, rfl, by simp [next, hi, hd]⟩
    | false => exact Or.inr ⟨rfl, rfl, by simp [next, hi, hd]⟩

end PullChannel
end Client
end TightbeamExt
