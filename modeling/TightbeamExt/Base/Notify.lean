import Mathlib.Data.List.Basic

/-!
# A notification primitive with one stored permit

The semantics of an async `Notify`: `notify_one` wakes the waiter that parked
first, or stores a permit when nobody waits; at most one permit is stored.
Awaiting consumes a stored permit or parks.  A parked task may go on as soon as
it is no longer among the waiters.

* `notifyOne`, `await`, `released` — the operations.
* `Settled` — a permit is stored only while nobody waits; every operation keeps it.
* `notifyOne_covers`, `await_covers` — counting the tasks that wait against the
  wake-ups left.
-/

/-- A permit and the parked tasks, the one that parked first at the head. -/
structure Notify (ι : Type*) where
  /-- A notification nobody has consumed. -/
  permit : Bool
  /-- The parked tasks. -/
  waiters : List ι
  deriving DecidableEq, Repr

namespace Notify

variable {ι : Type*}

/-- No permit, nobody parked. -/
def new : Notify ι := ⟨false, []⟩

instance : Inhabited (Notify ι) := ⟨new⟩

/-- Wake one parked task, or store the permit. -/
def notifyOne : Notify ι → Notify ι
  | ⟨_, []⟩ => ⟨true, []⟩
  | ⟨p, _ :: ws⟩ => ⟨p, ws⟩

/-- The first poll of an await by `i`: `true` when the stored permit lets it go
on, `false` when it parked. -/
def await (i : ι) : Notify ι → Bool × Notify ι
  | ⟨true, ws⟩ => (true, ⟨false, ws⟩)
  | ⟨false, ws⟩ => (false, ⟨false, ws ++ [i]⟩)

/-- A parked task that was woken. -/
def released [DecidableEq ι] (i : ι) (n : Notify ι) : Bool := decide (i ∉ n.waiters)

/-- The stored permit as a number of wake-ups. -/
def permits (n : Notify ι) : ℕ := if n.permit then 1 else 0

/-- A permit is stored only while nobody waits. -/
def Settled (n : Notify ι) : Prop := n.permit = true → n.waiters = []

theorem settled_new : (new : Notify ι).Settled := by intro h; cases h

theorem Settled.notifyOne {n : Notify ι} (h : n.Settled) : n.notifyOne.Settled := by
  obtain ⟨p, ws⟩ := n
  cases ws with
  | nil => intro _; rfl
  | cons w ws => intro hp; exact absurd (h hp) (List.cons_ne_nil w ws)

theorem Settled.await {n : Notify ι} (h : n.Settled) (i : ι) : (n.await i).2.Settled := by
  obtain ⟨p, ws⟩ := n
  cases p with
  | true => exact fun _ => h rfl
  | false => intro hp; cases hp

/-- A wake-up is never wasted while at most one further task is about to wait. -/
theorem notifyOne_covers {n : Notify ι} {c k : ℕ} (hc : c ≤ 1)
    (h : n.waiters.length + c ≤ k + 1 + n.permits) :
    n.notifyOne.waiters.length + c ≤ k + n.notifyOne.permits := by
  obtain ⟨p, ws⟩ := n
  cases ws with
  | nil =>
    simp only [notifyOne, permits, List.length_nil, if_true]
    omega
  | cons w ws =>
    have hp : (Notify.mk p ws).permits = (Notify.mk p (w :: ws)).permits := rfl
    simp only [notifyOne, List.length_cons] at h ⊢
    omega

/-- A task that stops to be about to wait takes the permit or joins the waiters. -/
theorem await_covers {n : Notify ι} (i : ι) {c k : ℕ}
    (h : n.waiters.length + (c + 1) ≤ k + n.permits) :
    (n.await i).2.waiters.length + c ≤ k + (n.await i).2.permits := by
  obtain ⟨p, ws⟩ := n
  cases p with
  | true =>
    simp only [await, permits, if_true, Bool.false_eq_true, if_false] at h ⊢
    omega
  | false =>
    simp only [await, permits, Bool.false_eq_true, if_false, List.length_append,
      List.length_singleton] at h ⊢
    omega

end Notify
