import TightbeamExt.Pubsub.Drain
import TightbeamExt.Pubsub.Node

/-!
# The bound of the queue and the drop counter

`queue_capacity` bounds the queue of every subscriber.  `push` keeps the bound by a
fast path and two eviction verdicts, `finish` appends the end frame past it, and
`dropped` counts the updates that were given up.  `DropOldest` relies on there being
an oldest update: over an empty queue, which is full when `queue_capacity` is 0, the
`pop_front` finds nothing, the update enters a queue that has no room for it, and a
drop is counted for nothing.  And once the end frame is the oldest one it is the end
frame that goes, or that the peer refuses, and is counted as if it were an update.

`Bound` plays whole calls on one lane in any sequence.

## Main definitions

* `Cell.waiting` — the queued frames and the calls that put them there.
* `Bound.step` — `push`, a pop, the end of an emit and one `finish`.
* `discards` — the updates a call gives up; the end frame is none.
* `Exact` — the bound and the counter after one call.
* `Sound` — `DropOldest` finds an update to drop, the peer takes the end frame, and the
  counter has room.

## Main results

* `waiting_of_trace` — `waiting` is the queue.
* `step_cases` — all that one call can do.
* `bound_and_counter_exact_iff_sound` — **the bound and the counter are exact along a
  sequence of calls exactly when every call is sound**.
* `drop_oldest_over_empty_queue` — the configuration in which they are not.
-/

namespace TightbeamExt
namespace Pubsub

open Transition

/-! ### The queue and who filled it -/

/-- The queued frames, each with the call that put it there: the last that entered. -/
def Cell.waiting (c : Cell) : List Sent :=
  c.history.enqueued.drop (c.history.enqueued.length - c.lane.queue.length)

namespace Cell

theorem length_le_of_waiting {c : Cell} (h : c.waiting.map Sent.frame = c.lane.queue) :
    c.lane.queue.length ≤ c.history.enqueued.length := by
  have hlen := congrArg List.length h
  rw [List.length_map, waiting, List.length_drop] at hlen
  omega

theorem waiting_eq_nil {c : Cell} (h : c.lane.queue = []) : c.waiting = [] := by
  rw [waiting, h, List.length_nil, Nat.sub_zero, List.drop_length]

/-- What enters the queue is the last of it. -/
theorem waiting_enqueue {c : Cell} (h : c.waiting.map Sent.frame = c.lane.queue) (x : Sent) :
    (c.enqueue x).waiting = c.waiting ++ [x] := by
  have hle := length_le_of_waiting h
  have hsame : (c.history.enqueued ++ [x]).length - (c.lane.queue ++ [x.frame]).length =
      c.history.enqueued.length - c.lane.queue.length := by
    rw [List.length_append, List.length_append, List.length_singleton, List.length_singleton]
    omega
  show (c.history.enqueued ++ [x]).drop _ = _
  rw [show (c.enqueue x).lane.queue = c.lane.queue ++ [x.frame] from rfl,
    show (c.enqueue x).history.enqueued = c.history.enqueued ++ [x] from rfl, hsame,
    List.drop_append_of_le_length (Nat.sub_le _ _), waiting]

/-- What leaves the queue is the first of it. -/
theorem waiting_tail {c c' : Cell} (h : c.waiting.map Sent.frame = c.lane.queue)
    (hqueue : c'.lane.queue = c.lane.queue.tail)
    (henqueued : c'.history.enqueued = c.history.enqueued) : c'.waiting = c.waiting.tail := by
  have hle := length_le_of_waiting h
  rw [waiting, waiting, hqueue, henqueued, List.length_tail, List.tail_drop]
  cases hq : c.lane.queue with
  | nil =>
    -- nothing waits, before and after
    rw [List.length_nil, Nat.zero_sub, Nat.sub_zero, List.drop_length,
      List.drop_eq_nil_of_le (Nat.le_succ _)]
  | cons f q =>
    rw [hq, List.length_cons] at hle
    congr 1
    rw [List.length_cons]
    omega

end Cell

/-- One lane among whole calls. -/
structure Bound where
  /-- The shared fields. -/
  cell : Cell
  /-- The frame popped for emission, and the call that enqueued it. -/
  emitting : Option Sent
  /-- The end frame was enqueued. -/
  ended : Bool
  deriving DecidableEq, Repr

/-- What happens on a lane. -/
inductive LaneCall
  /-- `Inner::push`, with what the policy answers at this call. -/
  | push (onFull : DeliveryPolicy) (update : Frame)
  /-- The drain task pops. -/
  | pop
  /-- The emit ends; the peer refused the update or took it. -/
  | emitted (refused : Bool)
  /-- `Subscriber::finish`. -/
  | finish (endFrame : Frame)

namespace Bound

/-- A fresh subscriber. -/
def init : Bound := ⟨Cell.new, none, false⟩

/-- The cell after the answer to an emit: a refusal is counted, then `in_flight` is
cleared. -/
def answer (refused : Bool) (c : Cell) : Cell :=
  if refused then c.countDrop.settle else c.settle

/-- One call.  The drain task pops only between emits, and a topic completes once. -/
def step (o : RegistryOptions) (topic : Topic) (s : Bound) : LaneCall → Option Bound
  | .push onFull update =>
      some { s with cell := (s.cell.push o.queueCapacity onFull topic update).1 }
  | .pop =>
      match s.emitting with
      | some _ => none
      | none => some { s with cell := s.cell.pop.2, emitting := s.cell.waiting.head? }
  | .emitted refused =>
      match s.emitting with
      | some _ => some { s with cell := answer refused s.cell, emitting := none }
      | none => none
  | .finish endFrame =>
      if s.ended then none else some { s with cell := s.cell.finish endFrame, ended := true }

/-! ### The property and its condition -/

/-- The updates a call gives up: the evicted one, the kept out one, the refused one.  The
end frame is no update, and a `Disconnect` gives up the connection. -/
def discards (o : RegistryOptions) (topic : Topic) (s : Bound) : LaneCall → List Frame
  | .push onFull update =>
      match s.cell.offered o.queueCapacity onFull topic with
      | .queued => []
      | .replaced => ((s.cell.waiting.take 1).filter Sent.isUpdate).map Sent.frame
      | .refused => [update]
      | .disconnect => []
  | .emitted refused =>
      if refused then (s.emitting.toList.filter Sent.isUpdate).map Sent.frame else []
  | .pop => []
  | .finish _ => []

/-- The queue is within its bound, the end frame apart, and the counter grew by the
updates the call gave up. -/
structure Exact (o : RegistryOptions) (topic : Topic) (m : Move Bound LaneCall) : Prop where
  /-- The bound after the call. -/
  bounded : m.after.cell.lane.queue.length ≤ o.queueCapacity + m.after.ended.toNat
  /-- The counter after the call. -/
  counted : m.after.cell.dropped = m.before.cell.dropped + (discards o topic m.before m.action).length

/-- The condition on a call. -/
structure Sound (o : RegistryOptions) (topic : Topic) (s : Bound) (a : LaneCall) : Prop where
  /-- A `DropOldest` finds an update in front. -/
  evicts : ∀ onFull update, a = .push onFull update →
    s.cell.offered o.queueCapacity onFull topic = .replaced → ∃ x ∈ s.cell.waiting.head?, x.isUpdate
  /-- The peer does not refuse the end frame. -/
  refuses : a = .emitted true → ∀ x ∈ s.emitting, x.isUpdate
  /-- A drop finds room in the 64-bit counter. -/
  room : discards o topic s a ≠ [] → s.cell.dropped + 1 < 2 ^ 64

variable {o : RegistryOptions} {topic : Topic}

/-- **All that one call can do.** -/
theorem step_cases {s s' : Bound} {a : LaneCall} (h : s.step o topic a = some s') :
    (∃ onFull update, a = .push onFull update ∧
      s' = { s with cell := (s.cell.push o.queueCapacity onFull topic update).1 }) ∨
    (a = .pop ∧ s' = { s with cell := s.cell.pop.2, emitting := s.cell.waiting.head? }) ∨
    (∃ refused x, a = .emitted refused ∧ s.emitting = some x ∧
      s' = { s with cell := answer refused s.cell, emitting := none }) ∨
    ∃ endFrame, a = .finish endFrame ∧ s.ended = false ∧
      s' = { s with cell := s.cell.finish endFrame, ended := true } := by
  cases a with
  | push onFull update => exact .inl ⟨onFull, update, rfl, (Option.some.inj h).symm⟩
  | pop =>
    simp only [step] at h
    split at h
    · cases h
    · exact .inr (.inl ⟨rfl, (Option.some.inj h).symm⟩)
  | emitted refused =>
    simp only [step] at h
    split at h
    · next x hx => exact .inr (.inr (.inl ⟨refused, x, rfl, hx, (Option.some.inj h).symm⟩))
    · cases h
  | finish endFrame =>
    simp only [step] at h
    split at h
    · cases h
    · next hended =>
      exact .inr (.inr (.inr ⟨endFrame, rfl, by simpa using hended, (Option.some.inj h).symm⟩))

/-! ### The counter -/

/-- `fetch_add` adds one below the end of the counter only. -/
theorem fetchAdd_eq_iff {n : ℕ} : fetchAdd n = n + 1 ↔ n + 1 < 2 ^ 64 := by
  unfold fetchAdd
  constructor
  · intro h
    rw [← h]
    exact Nat.mod_lt _ (by decide)
  · exact Nat.mod_eq_of_lt

theorem fetchAdd_ne (n : ℕ) : fetchAdd n ≠ n := by
  unfold fetchAdd
  omega

/-- A call that discards nothing and is no push and no refusal is sound. -/
theorem Sound.of_quiet {s : Bound} {a : LaneCall} (hpush : ∀ onFull update, a ≠ .push onFull update)
    (hemit : a ≠ .emitted true) (hnone : discards o topic s a = []) : Sound o topic s a where
  evicts := fun onFull update h => absurd h (hpush onFull update)
  refuses := fun h => absurd h hemit
  room := fun h => absurd hnone h

theorem sound_push_iff {s : Bound} {onFull : DeliveryPolicy} {update : Frame} :
    Sound o topic s (.push onFull update) ↔
      (s.cell.offered o.queueCapacity onFull topic = .replaced →
        ∃ x ∈ s.cell.waiting.head?, x.isUpdate) ∧
        (discards o topic s (.push onFull update) ≠ [] → s.cell.dropped + 1 < 2 ^ 64) := by
  constructor
  · intro h
    exact ⟨h.evicts onFull update rfl, h.room⟩
  · rintro ⟨hevicts, hroom⟩
    refine ⟨?_, ?_, hroom⟩
    · intro onFull' update' hpush
      cases hpush
      exact hevicts
    · intro hemit
      cases hemit

/-- What a drop of `x` discards, and what it takes. -/
theorem counted_drop_iff (n : ℕ) (x : Option Sent) :
    fetchAdd n = n + ((x.toList.filter Sent.isUpdate).map Sent.frame).length ↔
      (∃ y ∈ x, y.isUpdate) ∧
        ((x.toList.filter Sent.isUpdate).map Sent.frame ≠ [] → n + 1 < 2 ^ 64) := by
  cases x with
  | none =>
    -- nothing to drop: the counter moves although nothing was given up
    refine iff_of_false (fetchAdd_ne n) ?_
    rintro ⟨⟨y, hy, -⟩, -⟩
    cases hy
  | some y =>
    cases y with
    | update f =>
      show fetchAdd n = n + 1 ↔ _
      rw [fetchAdd_eq_iff]
      constructor
      · intro hlt
        exact ⟨⟨.update f, rfl, rfl⟩, fun _ => hlt⟩
      · rintro ⟨-, hroom⟩
        exact hroom (List.cons_ne_nil _ _)
    | completion f =>
      -- the end frame is dropped as if it were an update
      refine iff_of_false (fetchAdd_ne n) ?_
      rintro ⟨⟨y, hy, hupdate⟩, -⟩
      cases hy
      cases hupdate

/-- `push` counts exactly what it discards when it is sound. -/
theorem counted_push_iff_sound (s : Bound) (onFull : DeliveryPolicy) (update : Frame) :
    (s.cell.push o.queueCapacity onFull topic update).1.dropped =
        s.cell.dropped + (discards o topic s (.push onFull update)).length ↔
      Sound o topic s (.push onFull update) := by
  rw [sound_push_iff]
  simp only [Cell.push, discards]
  cases s.cell.offered o.queueCapacity onFull topic with
  | queued =>
    refine iff_of_true rfl ⟨?_, fun h => absurd rfl h⟩
    intro h
    cases h
  | disconnect =>
    refine iff_of_true rfl ⟨?_, fun h => absurd rfl h⟩
    intro h
    cases h
  | refused =>
    show fetchAdd s.cell.dropped = s.cell.dropped + 1 ↔ _
    rw [fetchAdd_eq_iff]
    refine ⟨fun hlt => ⟨?_, fun _ => hlt⟩, fun h => h.2 (List.cons_ne_nil _ _)⟩
    intro h
    cases h
  | replaced =>
    show fetchAdd s.cell.dropped = _ ↔ _
    have htake : s.cell.waiting.take 1 = s.cell.waiting.head?.toList := by
      cases s.cell.waiting <;> rfl
    simp only [htake, forall_const]
    exact counted_drop_iff s.cell.dropped s.cell.waiting.head?

theorem dropped_pop (c : Cell) : c.pop.2.dropped = c.dropped := by
  unfold Cell.pop
  split <;> rfl

/-- The answer to an emit counts exactly what the peer discards when it is sound. -/
theorem counted_emitted_iff_sound {s : Bound} {x : Sent} (hx : s.emitting = some x)
    (refused : Bool) :
    (answer refused s.cell).dropped =
        s.cell.dropped + (discards o topic s (.emitted refused)).length ↔
      Sound o topic s (.emitted refused) := by
  cases refused with
  | false => exact iff_of_true rfl (Sound.of_quiet (by simp) (by simp) rfl)
  | true =>
    have hcount := counted_drop_iff s.cell.dropped s.emitting
    refine hcount.trans ?_
    constructor
    · rintro ⟨⟨y, hy, hupdate⟩, hroom⟩
      refine ⟨by simp, ?_, hroom⟩
      intro _ z hz
      rw [Option.mem_unique hz hy]
      exact hupdate
    · intro h
      exact ⟨⟨x, hx, h.refuses rfl x hx⟩, h.room⟩

/-- The counter is exact after a call exactly when the call is sound. -/
theorem counted_iff_sound {s s' : Bound} {a : LaneCall} (h : s.step o topic a = some s') :
    s'.cell.dropped = s.cell.dropped + (discards o topic s a).length ↔ Sound o topic s a := by
  rcases step_cases h with ⟨onFull, update, rfl, rfl⟩ | ⟨rfl, rfl⟩ | ⟨refused, x, rfl, hx, rfl⟩ |
    ⟨endFrame, rfl, -, rfl⟩
  · exact counted_push_iff_sound s onFull update
  · exact iff_of_true (dropped_pop s.cell) (Sound.of_quiet (by simp) (by simp) rfl)
  · exact counted_emitted_iff_sound hx refused
  · exact iff_of_true rfl (Sound.of_quiet (by simp) (by simp) rfl)

/-! ### What waits is the queue -/

theorem waiting_push {c : Cell} (h : c.waiting.map Sent.frame = c.lane.queue) (capacity : ℕ)
    (onFull : DeliveryPolicy) (update : Frame) :
    (c.push capacity onFull topic update).1.waiting.map Sent.frame =
      (c.push capacity onFull topic update).1.lane.queue := by
  simp only [Cell.push]
  cases c.offered capacity onFull topic with
  | queued =>
    have hhand : (c.hand update).waiting.map Sent.frame = (c.hand update).lane.queue := h
    show ((c.hand update).enqueue (.update update)).waiting.map Sent.frame =
      (c.hand update).lane.queue ++ [update]
    rw [Cell.waiting_enqueue hhand, List.map_append, hhand]
    rfl
  | replaced =>
    have htail : ((c.hand update).evict).waiting = c.waiting.tail := Cell.waiting_tail h rfl rfl
    have hqueue : ((c.hand update).evict).waiting.map Sent.frame =
        ((c.hand update).evict).lane.queue := by
      rw [htail, List.map_tail, h]
      rfl
    show (((c.hand update).evict).enqueue (.update update)).waiting.map Sent.frame =
      ((c.hand update).evict).lane.queue ++ [update]
    rw [Cell.waiting_enqueue hqueue, List.map_append, hqueue]
    rfl
  | refused => exact h
  | disconnect => exact h

theorem waiting_pop {c : Cell} (h : c.waiting.map Sent.frame = c.lane.queue) :
    c.pop.2.waiting.map Sent.frame = c.pop.2.lane.queue := by
  unfold Cell.pop
  split
  · next hq =>
    rw [Cell.waiting_eq_nil rfl]
    rfl
  · next f q hq =>
    have htail : Cell.waiting { c with
        lane := ⟨q, true⟩
        history := { c.history with popped := c.history.popped ++ [f] } } = c.waiting.tail :=
      Cell.waiting_tail h (by rw [hq]; rfl) rfl
    exact (congrArg (List.map Sent.frame) htail).trans (by rw [List.map_tail, h, hq]; rfl)

/-- What the drain task takes is the first that waits. -/
theorem frame_head_waiting {c : Cell} (h : c.waiting.map Sent.frame = c.lane.queue) :
    c.waiting.head?.map Sent.frame = c.pop.1 := by
  rw [← List.head?_map, h]
  unfold Cell.pop
  split
  · next hq => rw [hq]; rfl
  · next f q hq => rw [hq]; rfl

/-- **`waiting` is the queue**, along every sequence of calls, and its first is what a pop
takes. -/
theorem waiting_of_trace {moves : List (Move Bound LaneCall)} {s : Bound}
    (h : Trace (step o topic) init moves s) :
    s.cell.waiting.map Sent.frame = s.cell.lane.queue ∧
      s.cell.waiting.head?.map Sent.frame = s.cell.pop.1 := by
  suffices hw : s.cell.waiting.map Sent.frame = s.cell.lane.queue from ⟨hw, frame_head_waiting hw⟩
  induction h with
  | nil => rfl
  | @snoc moves s s' a _ hstep ih =>
    rcases step_cases hstep with ⟨onFull, update, rfl, rfl⟩ | ⟨rfl, rfl⟩ | ⟨refused, x, rfl, -, rfl⟩ |
      ⟨endFrame, rfl, -, rfl⟩
    · exact waiting_push ih _ onFull update
    · exact waiting_pop ih
    · cases refused <;> exact ih
    · show (s.cell.enqueue (.completion endFrame)).waiting.map Sent.frame =
        s.cell.lane.queue ++ [endFrame]
      rw [Cell.waiting_enqueue ih, List.map_append, ih]
      rfl

/-! ### The bound -/

/-- The queue is within its bound, the end frame apart. -/
def Within (o : RegistryOptions) (s : Bound) : Prop :=
  s.cell.lane.queue.length ≤ o.queueCapacity + s.ended.toNat

/-- `push` takes the fast path only below the capacity. -/
theorem length_lt_of_queued {c : Cell} {capacity : ℕ} {onFull : DeliveryPolicy}
    (h : c.offered capacity onFull topic = .queued) : c.lane.queue.length < capacity := by
  by_contra hfull
  unfold Cell.offered at h
  rw [if_neg hfull] at h
  split at h <;> cases h

theorem length_pop_le (c : Cell) : c.pop.2.lane.queue.length ≤ c.lane.queue.length := by
  unfold Cell.pop
  split
  · exact Nat.zero_le _
  · next f q hq => simp [hq]

/-- A sound push keeps the bound: what it evicts makes room for what it enqueues. -/
theorem within_push {s : Bound} {onFull : DeliveryPolicy} {update : Frame} (hw : Within o s)
    (hs : Sound o topic s (.push onFull update)) :
    Within o { s with cell := (s.cell.push o.queueCapacity onFull topic update).1 } := by
  unfold Within at *
  simp only [Cell.push]
  cases ho : s.cell.offered o.queueCapacity onFull topic with
  | queued =>
    have hroom := length_lt_of_queued ho
    show (s.cell.lane.queue ++ [update]).length ≤ _
    rw [List.length_append, List.length_singleton]
    omega
  | replaced =>
    have hne : 0 < s.cell.lane.queue.length := by
      obtain ⟨x, hx, -⟩ := hs.evicts onFull update rfl ho
      refine List.length_pos_iff.mpr fun hnil => ?_
      rw [Cell.waiting_eq_nil hnil] at hx
      cases hx
    show (s.cell.lane.queue.tail ++ [update]).length ≤ _
    rw [List.length_append, List.length_tail, List.length_singleton]
    omega
  | refused => exact hw
  | disconnect => exact hw

/-- A sound call keeps the bound. -/
theorem within_step {s s' : Bound} {a : LaneCall} (hw : Within o s) (hs : Sound o topic s a)
    (h : s.step o topic a = some s') : Within o s' := by
  rcases step_cases h with ⟨onFull, update, rfl, rfl⟩ | ⟨rfl, rfl⟩ | ⟨refused, x, rfl, -, rfl⟩ |
    ⟨endFrame, rfl, hended, rfl⟩
  · exact within_push hw hs
  · exact Nat.le_trans (length_pop_le s.cell) hw
  · cases refused <;> exact hw
  · -- the end frame may stand one past the bound
    simp only [Within, hended, Bool.toNat_false, Nat.add_zero] at hw
    show (s.cell.lane.queue ++ [endFrame]).length ≤ _
    rw [List.length_append, List.length_singleton]
    exact Nat.add_le_add_right hw 1

theorem within_of_trace {moves : List (Move Bound LaneCall)} {s : Bound}
    (h : Trace (step o topic) init moves s)
    (hs : ∀ m ∈ moves, Sound o topic m.before m.action) : Within o s := by
  induction h with
  | nil => exact Nat.zero_le _
  | snoc htrace hstep ih =>
    have hbefore := ih fun m hm => hs m (List.mem_append_left _ hm)
    exact within_step hbefore (hs _ (List.mem_append_right _ (List.mem_singleton_self _))) hstep

/-- **The bound and the counter are exact exactly along sound calls.**  For every
configuration and every sequence of pushes, pops, emits and one `finish`: after each call
the queue is within its bound — one more once the end frame is enqueued — and `dropped`
grew by the updates the call gave up, the end frame being none, if and only if every call
was sound. -/
theorem bound_and_counter_exact_iff_sound (o : RegistryOptions) (topic : Topic)
    (moves : List (Move Bound LaneCall)) (s : Bound) (h : Trace (step o topic) init moves s) :
    (∀ m ∈ moves, Exact o topic m) ↔ ∀ m ∈ moves, Sound o topic m.before m.action := by
  constructor
  · intro hexact m hm
    exact (counted_iff_sound (h.mem .start hm).2).mp (hexact m hm).counted
  · intro hsound
    induction h with
    | nil => intro m hm; cases hm
    | snoc htrace hstep ih =>
      intro m hm
      have hlast := hsound _ (List.mem_append_right _ (List.mem_singleton_self _))
      rcases List.mem_append.mp hm with hin | hin
      · exact ih (fun m hm => hsound m (List.mem_append_left _ hm)) m hin
      · rw [List.mem_singleton.mp hin]
        exact ⟨within_of_trace (htrace.snoc hstep) hsound, (counted_iff_sound hstep).mpr hlast⟩

/-- One update on a queue of capacity 0 under `DropOldest`. -/
def overfullMove : Move Bound LaneCall :=
  ⟨init, .push dropOldest ⟨[], 1, []⟩,
    ⟨(Cell.new.push 0 dropOldest Topic.prices ⟨[], 1, []⟩).1, none, false⟩⟩

/-- **`DropOldest` over an empty queue** breaks the bound and counts a drop although
nothing was dropped. -/
theorem drop_oldest_over_empty_queue :
    ¬ ∀ (o : RegistryOptions) (topic : Topic) (moves : List (Move Bound LaneCall)) (s : Bound),
      Trace (step o topic) init moves s → ∀ m ∈ moves, Exact o topic m := by
  intro h
  have htrace : Trace (step ⟨0, 64⟩ Topic.prices) init [overfullMove] overfullMove.after :=
    Trace.snoc .nil rfl
  have hexact := h ⟨0, 64⟩ Topic.prices _ _ htrace _ (List.mem_singleton_self _)
  exact absurd hexact.bounded (by decide)

/-- Two updates on a queue of one under `DropOldest`: the second evicts the first. -/
theorem bound_and_counter_exact_over_one :
    ∃ (moves : List (Move Bound LaneCall)) (s : Bound),
      Trace (step ⟨1, 64⟩ Topic.prices) init moves s ∧ s.cell.dropped = 1 ∧
        ∀ m ∈ moves, Exact ⟨1, 64⟩ Topic.prices m := by
  have hfirst : Trace (step ⟨1, 64⟩ Topic.prices) init _ _ :=
    Trace.snoc (a := .push dropOldest ⟨[], 1, []⟩) .nil rfl
  have htrace := hfirst.snoc (a := .push dropOldest ⟨[], 2, []⟩) rfl
  refine ⟨_, _, htrace, rfl,
    (bound_and_counter_exact_iff_sound ⟨1, 64⟩ Topic.prices _ _ htrace).mpr ?_⟩
  intro m hm
  simp only [List.nil_append, List.singleton_append, List.mem_cons, List.not_mem_nil,
    or_false] at hm
  rcases hm with rfl | rfl
  · refine sound_push_iff.mpr ⟨?_, fun _ => by decide⟩
    intro h
    cases h
  · exact sound_push_iff.mpr ⟨fun _ => ⟨_, rfl, rfl⟩, fun _ => by decide⟩

end Bound
end Pubsub
end TightbeamExt
