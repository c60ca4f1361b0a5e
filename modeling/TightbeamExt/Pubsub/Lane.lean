import TightbeamExt.Base.Notify
import TightbeamExt.Pubsub.Topic

/-!
# One subscriber's delivery lane

A subscriber owns a bounded queue, an `in_flight` flag guarded together with it,
a counter of dropped updates, the two flags that stop its drain task and the
notification the task parks on.  Topic and connection never change and live in
the registry's map; `Cell` holds the fields with interior mutability, shared by
the registry and the drain task.

`push`, `finish` and `close` run several atomic steps — a critical section under
the lane lock, then counters, flags and a wake-up outside it.  `CellOp` names
those steps, so that a scheduler can interleave them with a drain task.

`History` is ghost state: what was handed to the lane, what entered the queue and
how it left.

## Main definitions

* `Cell.push`, `Cell.finish`, `Cell.close`, `Cell.pop`, `Cell.pending`.
* `CellOp`, `CellOp.exec`, `CellOp.followUps` — their atomic steps.
* `Cell.Conserved` — every frame that entered the queue is in it, was evicted or
  was popped.

## Main results

* `push_eq_exec`, `finish_eq_exec`, `close_eq_exec` — the calls are their steps in
  sequence.
* `Conserved.exec`, `Conserved.pop` — no step loses or invents a frame.
-/

namespace TightbeamExt
namespace Pubsub

/-- One registered connection. -/
structure ConnectionId where
  /-- The allocated number. -/
  val : ℕ
  deriving DecidableEq, Repr

/-- One live subscription. -/
structure SubscriberId where
  /-- The allocated number. -/
  val : ℕ
  deriving DecidableEq, Repr

/-- What to do when a subscriber's bounded update queue is full. -/
inductive DeliveryVerdict
  /-- Drop the oldest queued update to make room for the new one. -/
  | dropOldest
  /-- Drop the new update and keep the queue as is. -/
  | dropNew
  /-- Drop the subscriber's whole connection. -/
  | disconnect
  deriving DecidableEq, Repr

/-- `DeliveryPolicy::on_full`, asked with the topic and the updates dropped so
far.  A policy may keep state of its own, so each call is given its own
function. -/
abbrev DeliveryPolicy := Topic → ℕ → DeliveryVerdict

/-- The default policy. -/
def dropOldest : DeliveryPolicy := fun _ _ => .dropOldest

/-- `fetch_add(1)` on an `AtomicU64`. -/
def fetchAdd (n : ℕ) : ℕ := (n + 1) % 2 ^ 64

/-! ### The lane -/

/-- The queue and its emit state, guarded as one unit. -/
structure Lane where
  /-- The queued frames, oldest first. -/
  queue : List Frame
  /-- A popped update is being emitted right now. -/
  inFlight : Bool
  deriving DecidableEq, Repr

/-- A frame that entered the queue, and the call that put it there. -/
inductive Sent
  /-- An update, through `push`. -/
  | update (f : Frame)
  /-- The end frame, through `finish`. -/
  | completion (f : Frame)
  deriving DecidableEq, Repr

/-- The frame itself. -/
def Sent.frame : Sent → Frame
  | .update f => f
  | .completion f => f

@[simp] theorem Sent.frame_update (f : Frame) : (Sent.update f).frame = f := rfl

@[simp] theorem Sent.frame_completion (f : Frame) : (Sent.completion f).frame = f := rfl

/-- It came through `push`. -/
def Sent.isUpdate : Sent → Bool
  | .update _ => true
  | .completion _ => false

/-- What happened on a lane so far. -/
structure History where
  /-- The updates `push` was called with. -/
  handed : List Frame
  /-- The frames that entered the queue. -/
  enqueued : List Sent
  /-- The updates the policy evicted from the queue. -/
  evicted : List Frame
  /-- The updates the policy kept out of the queue. -/
  refused : List Frame
  /-- The frames the drain task took. -/
  popped : List Frame
  deriving DecidableEq, Repr

/-- The mutable fields of a subscriber. -/
structure Cell where
  /-- The queue under its lock. -/
  lane : Lane
  /-- What the drain task parks on; it is the only waiter. -/
  notify : Notify Unit
  /-- Updates dropped so far. -/
  dropped : ℕ
  /-- Stop immediately: the subscription or its connection is gone. -/
  closed : Bool
  /-- Stop once the queue empties: the topic completed. -/
  finished : Bool
  /-- What happened so far. -/
  history : History
  deriving DecidableEq, Repr

namespace Cell

/-- `Subscriber::new`. -/
def new : Cell := ⟨⟨[], false⟩, Notify.new, 0, false, false, ⟨[], [], [], [], []⟩⟩

instance : Inhabited Cell := ⟨new⟩

/-- `Subscriber::pending`: updates are still queued or being emitted. -/
def pending (c : Cell) : Bool := c.lane.inFlight || !c.lane.queue.isEmpty

/-! ### The steps -/

/-- `queue.push_back`. -/
def enqueue (s : Sent) (c : Cell) : Cell :=
  { c with
    lane := { c.lane with queue := c.lane.queue ++ [s.frame] }
    history := { c.history with enqueued := c.history.enqueued ++ [s] } }

/-- `queue.pop_front` by the policy. -/
def evict (c : Cell) : Cell :=
  { c with
    lane := { c.lane with queue := c.lane.queue.tail }
    history := { c.history with evicted := c.history.evicted ++ c.lane.queue.take 1 } }

/-- The update stays out of the queue. -/
def refuse (update : Frame) (c : Cell) : Cell :=
  { c with history := { c.history with refused := c.history.refused ++ [update] } }

/-- `push` was called with `update`. -/
def hand (update : Frame) (c : Cell) : Cell :=
  { c with history := { c.history with handed := c.history.handed ++ [update] } }

/-- `dropped.fetch_add(1)`. -/
def countDrop (c : Cell) : Cell := { c with dropped := fetchAdd c.dropped }

/-- `notify.notify_one()`. -/
def wake (c : Cell) : Cell := { c with notify := c.notify.notifyOne }

/-- `closed.store(true)`. -/
def storeClosed (c : Cell) : Cell := { c with closed := true }

/-- `finished.store(true)`. -/
def storeFinished (c : Cell) : Cell := { c with finished := true }

/-- What `push` decides under the lane lock. -/
inductive Offer
  /-- There is room. -/
  | queued
  /-- The oldest queued update makes room. -/
  | replaced
  /-- The new update is dropped. -/
  | refused
  /-- The policy gave up on the connection. -/
  | disconnect
  deriving DecidableEq, Repr

/-- The decision of `push`: room in the queue, else the policy's verdict. -/
def offered (capacity : ℕ) (onFull : DeliveryPolicy) (topic : Topic) (c : Cell) : Offer :=
  if c.lane.queue.length < capacity then .queued
  else
    match onFull topic c.dropped with
    | .dropOldest => .replaced
    | .dropNew => .refused
    | .disconnect => .disconnect

/-- The critical section of `push` once the decision is taken. -/
def offer (update : Frame) (c : Cell) : Offer → Cell
  | .queued => (c.hand update).enqueue (.update update)
  | .replaced => ((c.hand update).evict).enqueue (.update update)
  | .refused => (c.hand update).refuse update
  | .disconnect => c.hand update

end Cell

/-! ### The calls -/

/-- What one enqueue attempt did. -/
inductive PushOutcome
  /-- The update entered the queue. -/
  | delivered
  /-- The policy dropped the update. -/
  | dropped
  /-- The policy gave up on the whole connection. -/
  | disconnect
  deriving DecidableEq, Repr

namespace Cell

/-- `Inner::push`: enqueue one update, consulting the delivery policy when the
queue is full. -/
def push (capacity : ℕ) (onFull : DeliveryPolicy) (topic : Topic) (update : Frame) (c : Cell) :
    Cell × PushOutcome :=
  match c.offered capacity onFull topic with
  | .queued => ((c.offer update .queued).wake, .delivered)
  | .replaced => ((c.offer update .replaced).countDrop.wake, .delivered)
  | .refused => ((c.offer update .refused).countDrop, .dropped)
  | .disconnect => (c.offer update .disconnect, .disconnect)

/-- `Subscriber::finish`: queue the final update and stop the drain task once it
flushes. -/
def finish (endFrame : Frame) (c : Cell) : Cell :=
  ((c.enqueue (.completion endFrame)).storeFinished).wake

/-- `Subscriber::close`: stop the drain task at the next iteration and wake it. -/
def close (c : Cell) : Cell := c.storeClosed.wake

/-- The drain task's critical section: take the oldest frame and say whether one
is in flight. -/
def pop (c : Cell) : Option Frame × Cell :=
  match c.lane.queue with
  | [] => (none, { c with lane := ⟨[], false⟩ })
  | f :: q =>
      (some f, { c with
        lane := ⟨q, true⟩
        history := { c.history with popped := c.history.popped ++ [f] } })

/-- The emit settled: nothing is in flight. -/
def settle (c : Cell) : Cell := { c with lane := { c.lane with inFlight := false } }

end Cell

/-! ### Their atomic steps -/

/-- The atomic steps `push`, `finish` and `close` are made of. -/
inductive CellOp
  /-- `push` under the lane lock. -/
  | offer (capacity : ℕ) (onFull : DeliveryPolicy) (topic : Topic) (update : Frame)
  /-- `dropped.fetch_add(1)`. -/
  | countDrop
  /-- `notify.notify_one()`. -/
  | wake
  /-- `finish` under the lane lock. -/
  | enqueueEnd (endFrame : Frame)
  /-- `finished.store(true)`. -/
  | storeFinished
  /-- `closed.store(true)`. -/
  | storeClosed

namespace CellOp

/-- The effect of one step. -/
def exec : CellOp → Cell → Cell
  | .offer capacity onFull topic update, c => c.offer update (c.offered capacity onFull topic)
  | .countDrop, c => c.countDrop
  | .wake, c => c.wake
  | .enqueueEnd f, c => c.enqueue (.completion f)
  | .storeFinished, c => c.storeFinished
  | .storeClosed, c => c.storeClosed

/-- The steps the same call still has to make. -/
def followUps : CellOp → Cell → List CellOp
  | .offer capacity onFull topic _, c =>
      match c.offered capacity onFull topic with
      | .queued => [.wake]
      | .replaced => [.countDrop, .wake]
      | .refused => [.countDrop]
      | .disconnect => []
  | .enqueueEnd _, _ => [.storeFinished, .wake]
  | .storeClosed, _ => [.wake]
  | _, _ => []

/-- The step puts a frame into the queue. -/
def enqueues : CellOp → Cell → Bool
  | .offer capacity onFull topic _, c =>
      match c.offered capacity onFull topic with
      | .queued => true
      | .replaced => true
      | _ => false
  | .enqueueEnd _, _ => true
  | _, _ => false

/-- The step is the store of `finished`. -/
def storesFinished : CellOp → Bool
  | .storeFinished => true
  | _ => false

/-- The step is the store of `closed`. -/
def storesClosed : CellOp → Bool
  | .storeClosed => true
  | _ => false

theorem finished_exec (op : CellOp) (c : Cell) :
    (op.exec c).finished = (c.finished || op.storesFinished) := by
  cases op with
  | offer capacity onFull topic update =>
    simp only [exec, storesFinished, Bool.or_false]
    cases c.offered capacity onFull topic <;> rfl
  | storeFinished => simp [exec, Cell.storeFinished, storesFinished]
  | countDrop => simp [exec, Cell.countDrop, storesFinished]
  | wake => simp [exec, Cell.wake, storesFinished]
  | enqueueEnd f => simp [exec, Cell.enqueue, storesFinished]
  | storeClosed => simp [exec, Cell.storeClosed, storesFinished]

theorem closed_exec (op : CellOp) (c : Cell) :
    (op.exec c).closed = (c.closed || op.storesClosed) := by
  cases op with
  | offer capacity onFull topic update =>
    simp only [exec, storesClosed, Bool.or_false]
    cases c.offered capacity onFull topic <;> rfl
  | storeFinished => simp [exec, Cell.storeFinished, storesClosed]
  | countDrop => simp [exec, Cell.countDrop, storesClosed]
  | wake => simp [exec, Cell.wake, storesClosed]
  | enqueueEnd f => simp [exec, Cell.enqueue, storesClosed]
  | storeClosed => simp [exec, Cell.storeClosed, storesClosed]

theorem inFlight_exec (op : CellOp) (c : Cell) :
    (op.exec c).lane.inFlight = c.lane.inFlight := by
  cases op with
  | offer capacity onFull topic update =>
    simp only [exec]
    cases c.offered capacity onFull topic <;> rfl
  | _ => rfl

/-- A step that enqueues nothing leaves the queue alone. -/
theorem queue_exec_of_not_enqueues {op : CellOp} {c : Cell} (h : op.enqueues c = false) :
    (op.exec c).lane.queue = c.lane.queue := by
  cases op with
  | offer capacity onFull topic update =>
    simp only [enqueues] at h
    simp only [exec]
    cases ho : c.offered capacity onFull topic with
    | queued => rw [ho] at h; cases h
    | replaced => rw [ho] at h; cases h
    | refused => rfl
    | disconnect => rfl
  | enqueueEnd f => cases h
  | countDrop => rfl
  | wake => rfl
  | storeFinished => rfl
  | storeClosed => rfl

/-- A step that enqueues leaves a frame queued. -/
theorem queue_exec_ne_nil {op : CellOp} {c : Cell} (h : op.enqueues c = true) :
    (op.exec c).lane.queue ≠ [] := by
  cases op with
  | offer capacity onFull topic update =>
    simp only [enqueues] at h
    simp only [exec]
    cases ho : c.offered capacity onFull topic with
    | queued => simp [Cell.offer, Cell.enqueue]
    | replaced => simp [Cell.offer, Cell.enqueue]
    | refused => rw [ho] at h; cases h
    | disconnect => rw [ho] at h; cases h
  | enqueueEnd f => simp [exec, Cell.enqueue]
  | countDrop => cases h
  | wake => cases h
  | storeFinished => cases h
  | storeClosed => cases h

/-- What a call still has to do after its first step. -/
theorem mem_followUps {op op' : CellOp} {c : Cell} (h : op' ∈ op.followUps c) :
    op' = .countDrop ∨ op' = .wake ∨ op' = .storeFinished := by
  cases op with
  | offer capacity onFull topic update =>
    simp only [followUps] at h
    cases ho : c.offered capacity onFull topic <;> simp [ho] at h
    · exact .inr (.inl h)
    · rcases h with rfl | rfl
      · exact .inl rfl
      · exact .inr (.inl rfl)
    · exact .inl h
  | enqueueEnd f =>
    simp only [followUps, List.mem_cons, List.not_mem_nil, or_false] at h
    rcases h with rfl | rfl
    · exact .inr (.inr rfl)
    · exact .inr (.inl rfl)
  | storeClosed =>
    simp only [followUps, List.mem_singleton] at h
    exact .inr (.inl h)
  | countDrop => simp [followUps] at h
  | wake => simp [followUps] at h
  | storeFinished => simp [followUps] at h

/-- It stores no `closed`. -/
theorem storesClosed_followUps {op op' : CellOp} {c : Cell} (h : op' ∈ op.followUps c) :
    op'.storesClosed = false := by
  rcases mem_followUps h with rfl | rfl | rfl <;> rfl

/-- And has no further steps. -/
theorem followUps_followUps {op op' : CellOp} {c : Cell} (h : op' ∈ op.followUps c) (c' : Cell) :
    op'.followUps c' = [] := by
  rcases mem_followUps h with rfl | rfl | rfl <;> rfl

/-- Run a call's steps with nothing in between. -/
def execAll (ops : List CellOp) (c : Cell) : Cell := ops.foldl (fun c op => op.exec c) c

end CellOp

namespace Cell

/-- `push` is its critical section followed by its other steps. -/
theorem push_eq_exec (capacity : ℕ) (onFull : DeliveryPolicy) (topic : Topic) (update : Frame)
    (c : Cell) :
    (c.push capacity onFull topic update).1 =
      CellOp.execAll ((CellOp.offer capacity onFull topic update).followUps c)
        ((CellOp.offer capacity onFull topic update).exec c) := by
  simp only [push, CellOp.followUps, CellOp.exec]
  cases c.offered capacity onFull topic with
  | queued => rfl
  | replaced => rfl
  | refused => rfl
  | disconnect => rfl

/-- `finish` is its critical section followed by its other steps. -/
theorem finish_eq_exec (f : Frame) (c : Cell) :
    c.finish f = CellOp.execAll ((CellOp.enqueueEnd f).followUps c)
      ((CellOp.enqueueEnd f).exec c) := rfl

/-- `close` is its store followed by its wake-up. -/
theorem close_eq_exec (c : Cell) :
    c.close = CellOp.execAll (CellOp.storeClosed.followUps c) (CellOp.storeClosed.exec c) := rfl

/-! ### The logs of a lane -/

/-- The same updates were handed to the lane and the same frames entered it. -/
structure SameLog (c c' : Cell) : Prop where
  /-- The updates `push` was called with. -/
  handed : c'.history.handed = c.history.handed
  /-- The frames that entered the queue. -/
  enqueued : c'.history.enqueued = c.history.enqueued

theorem SameLog.refl (c : Cell) : SameLog c c := ⟨rfl, rfl⟩

theorem sameLog_pop (c : Cell) : SameLog c c.pop.2 := by
  unfold pop
  split
  · exact ⟨rfl, rfl⟩
  · exact ⟨rfl, rfl⟩

@[simp] theorem history_close (c : Cell) : c.close.history = c.history := rfl

@[simp] theorem handed_finish (f : Frame) (c : Cell) :
    (c.finish f).history.handed = c.history.handed := rfl

@[simp] theorem enqueued_finish (f : Frame) (c : Cell) :
    (c.finish f).history.enqueued = c.history.enqueued ++ [.completion f] := rfl

@[simp] theorem handed_push (capacity : ℕ) (onFull : DeliveryPolicy) (topic : Topic)
    (update : Frame) (c : Cell) :
    (c.push capacity onFull topic update).1.history.handed = c.history.handed ++ [update] := by
  unfold push
  cases c.offered capacity onFull topic <;> rfl

/-- `push` enters the update it was called with, or nothing. -/
theorem enqueued_push (capacity : ℕ) (onFull : DeliveryPolicy) (topic : Topic)
    (update : Frame) (c : Cell) :
    (c.push capacity onFull topic update).1.history.enqueued = c.history.enqueued ∨
      (c.push capacity onFull topic update).1.history.enqueued =
        c.history.enqueued ++ [.update update] := by
  unfold push
  cases c.offered capacity onFull topic with
  | queued => exact Or.inr rfl
  | replaced => exact Or.inr rfl
  | refused => exact Or.inl rfl
  | disconnect => exact Or.inl rfl

/-- `push` puts nothing but updates into a lane. -/
theorem isUpdate_push {capacity : ℕ} {onFull : DeliveryPolicy} {topic : Topic} {update : Frame}
    {c : Cell} (h : ∀ s ∈ c.history.enqueued, s.isUpdate = true) :
    ∀ s ∈ (c.push capacity onFull topic update).1.history.enqueued, s.isUpdate = true := by
  rcases enqueued_push capacity onFull topic update c with hlog | hlog
  · rw [hlog]
    exact h
  · rw [hlog]
    intro s hs
    rcases List.mem_append.mp hs with hs | hs
    · exact h s hs
    · rw [List.mem_singleton.mp hs]
      rfl

/-! ### Conservation -/

/-- Every frame that entered the queue is still in it, was evicted or was popped. -/
def Conserved (c : Cell) : Prop :=
  (c.history.enqueued.map Sent.frame).Perm
    (c.history.evicted ++ (c.history.popped ++ c.lane.queue))

theorem conserved_new : new.Conserved := List.Perm.nil

theorem Conserved.enqueue {c : Cell} (h : c.Conserved) (s : Sent) : (c.enqueue s).Conserved := by
  have happ := h.append_right [s.frame]
  simpa [Conserved, Cell.enqueue, List.append_assoc] using happ

theorem Conserved.evict {c : Cell} (h : c.Conserved) : c.evict.Conserved := by
  unfold Conserved Cell.evict at *
  refine h.trans ?_
  cases hq : c.lane.queue with
  | nil => simp
  | cons f q =>
    -- the head moves from the queue to the evicted frames
    simp only [List.take_succ_cons, List.take_zero, List.tail_cons, List.append_assoc]
    exact List.Perm.append_left _ List.perm_middle

theorem Conserved.hand {c : Cell} (h : c.Conserved) (f : Frame) : (c.hand f).Conserved := h

theorem Conserved.offer {c : Cell} (h : c.Conserved) (f : Frame) (o : Offer) :
    (c.offer f o).Conserved := by
  cases o with
  | queued => exact (h.hand f).enqueue _
  | replaced => exact ((h.hand f).evict).enqueue _
  | refused => exact h
  | disconnect => exact h

/-- No step of a call loses or invents a frame. -/
theorem Conserved.exec {c : Cell} (h : c.Conserved) (op : CellOp) : (op.exec c).Conserved := by
  cases op with
  | offer capacity onFull topic update => exact h.offer _ _
  | enqueueEnd f => exact h.enqueue _
  | countDrop => exact h
  | wake => exact h
  | storeFinished => exact h
  | storeClosed => exact h

theorem Conserved.pop {c : Cell} (h : c.Conserved) : c.pop.2.Conserved := by
  unfold Cell.pop
  split
  · next hq => simpa [Conserved, hq] using h
  · next f q hq => simpa [Conserved, hq] using h

end Cell
end Pubsub
end TightbeamExt
