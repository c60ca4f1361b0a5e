import TightbeamExt.Base.Transition
import TightbeamExt.Pubsub.Lane

/-!
# The drain task of one subscriber

`drain` is a loop of atomic steps: read `closed`; pop under the lane lock; on an
empty pop read `finished`, then park; otherwise emit, clear `in_flight`, signal
an emptied queue and stop on a lost link.  `DrainPc` names the point the task
stands at and `drainStep` takes one step from it.

`DrainSys` runs one drain task against any number of `push` calls and one
`finish`, all interleaved at their atomic steps.  `finish` enqueues the end frame
and stores `finished` in two steps, and the task tests the queue and the flag in
two steps of its own.  When both steps of `finish` fall between the two tests the
task returns with the end frame still queued.

## Main results

* `drain_leaves_nothing_iff_timely` — **when a returning drain task leaves nothing behind**:
  exactly the steps outside `Timely` strand a frame.
* `drain_strands_end_frame` — the interleaving that strands the end frame.
-/

namespace TightbeamExt
namespace Pubsub

open Transition

/-! ### The task -/

/-- What the link answers to the drain task. -/
inductive LinkEvent
  /-- The peer acknowledged the update. -/
  | accepted
  /-- The local stream cap is exhausted. -/
  | streamsExhausted
  /-- The peer refused this one update. -/
  | refused
  /-- The emit failed in any other way. -/
  | failed
  /-- A stream slot came free. -/
  | slotFreed
  /-- No stream slot will ever come free. -/
  | slotLost
  deriving DecidableEq, Repr

/-- The event ends the drain task with `LinkLost`. -/
def LinkEvent.lost : LinkEvent → Bool
  | .failed => true
  | .slotLost => true
  | _ => false

/-- Where a drain task stands. -/
inductive DrainPc
  /-- At the top of the loop, about to read `closed`. -/
  | readClosed
  /-- About to pop under the lane lock. -/
  | pop
  /-- Popped nothing, about to read `finished`. -/
  | readFinished
  /-- About to poll the notification for the first time. -/
  | await
  /-- Parked on the notification. -/
  | parked
  /-- Waiting for the answer to an emit. -/
  | emit (update : Frame)
  /-- Waiting for a stream slot. -/
  | slotWait (update : Frame)
  /-- The emit ended, about to clear `in_flight`. -/
  | settle (lost : Bool)
  /-- The queue is empty, about to signal it. -/
  | flush (lost : Bool)
  /-- The link is lost, about to store `closed`. -/
  | storeClosed
  /-- About to wake itself up, the tail of `close`. -/
  | wake
  /-- Returned. -/
  | returned
  deriving DecidableEq, Repr

/-- Where the loop goes on after an emit: back to its top, or into `close`. -/
def DrainPc.afterEmit (lost : Bool) : DrainPc := if lost then .storeClosed else .readClosed

/-- The task is not on its way out over a lost link. -/
def DrainPc.linked : DrainPc → Bool
  | .settle lost => !lost
  | .flush lost => !lost
  | .storeClosed => false
  | .wake => false
  | _ => true

/-- One atomic step of `drain` (and of `deliver` inside it).  Only the two waits
on the link consume the event. -/
def drainStep (e : LinkEvent) (c : Cell) : DrainPc → Option (Cell × DrainPc)
  | .readClosed => some (c, if c.closed then .returned else .pop)
  | .pop =>
      match c.pop with
      | (none, c') => some (c', .readFinished)
      | (some update, c') => some (c', .emit update)
  | .readFinished => some (c, if c.finished then .returned else .await)
  | .await =>
      match c.notify.await () with
      | (true, n) => some ({ c with notify := n }, .readClosed)
      | (false, n) => some ({ c with notify := n }, .parked)
  | .parked => if c.notify.released () then some (c, .readClosed) else none
  | .emit update =>
      match e with
      | .accepted => some (c, .settle false)
      | .streamsExhausted => some (c, .slotWait update)
      | .refused => some (c.countDrop, .settle false)
      | .failed => some (c, .settle true)
      | _ => none
  | .slotWait update =>
      match e with
      | .slotFreed => some (c, .emit update)
      | .slotLost => some (c, .settle true)
      | _ => none
  | .settle lost =>
      some (c.settle, if c.lane.queue.isEmpty then .flush lost else .afterEmit lost)
  | .flush lost => some (c, .afterEmit lost)
  | .storeClosed => some (c.storeClosed, .wake)
  | .wake => some (c.wake, .returned)
  | .returned => none

/-- What a step of the task found and did, one constructor for each way it can
go. -/
inductive DrainMove (c : Cell) : LinkEvent → DrainPc → Cell → DrainPc → Prop
  /-- The subscriber is closed. -/
  | stop {e : LinkEvent} (hclosed : c.closed = true) : DrainMove c e .readClosed c .returned
  /-- It is not. -/
  | goOn {e : LinkEvent} (hclosed : c.closed = false) : DrainMove c e .readClosed c .pop
  /-- The queue is empty. -/
  | dry {e : LinkEvent} (hq : c.lane.queue = []) :
      DrainMove c e .pop { c with lane := ⟨[], false⟩ } .readFinished
  /-- The oldest frame leaves the queue. -/
  | take {e : LinkEvent} (f : Frame) (q : List Frame) (hq : c.lane.queue = f :: q) :
      DrainMove c e .pop
        { c with
          lane := ⟨q, true⟩
          history := { c.history with popped := c.history.popped ++ [f] } }
        (.emit f)
  /-- The topic completed. -/
  | complete {e : LinkEvent} (hf : c.finished = true) : DrainMove c e .readFinished c .returned
  /-- It did not. -/
  | idle {e : LinkEvent} (hf : c.finished = false) : DrainMove c e .readFinished c .await
  /-- A permit is stored. -/
  | permit {e : LinkEvent} (n : Notify Unit) (hn : c.notify.await () = (true, n)) :
      DrainMove c e .await { c with notify := n } .readClosed
  /-- The task parks. -/
  | park {e : LinkEvent} (n : Notify Unit) (hn : c.notify.await () = (false, n)) :
      DrainMove c e .await { c with notify := n } .parked
  /-- It is woken. -/
  | woken {e : LinkEvent} (hn : c.notify.released () = true) : DrainMove c e .parked c .readClosed
  /-- The peer acknowledged. -/
  | accepted (f : Frame) : DrainMove c .accepted (.emit f) c (.settle false)
  /-- There is no stream slot. -/
  | exhausted (f : Frame) : DrainMove c .streamsExhausted (.emit f) c (.slotWait f)
  /-- The peer refused. -/
  | refused (f : Frame) : DrainMove c .refused (.emit f) c.countDrop (.settle false)
  /-- The link failed. -/
  | failed (f : Frame) : DrainMove c .failed (.emit f) c (.settle true)
  /-- A slot came free. -/
  | slotFreed (f : Frame) : DrainMove c .slotFreed (.slotWait f) c (.emit f)
  /-- None will. -/
  | slotLost (f : Frame) : DrainMove c .slotLost (.slotWait f) c (.settle true)
  /-- The emit ended over an empty queue. -/
  | emptied {e : LinkEvent} (lost : Bool) (hq : c.lane.queue = []) :
      DrainMove c e (.settle lost) c.settle (.flush lost)
  /-- The emit ended over a frame. -/
  | settled {e : LinkEvent} (lost : Bool) (hq : c.lane.queue ≠ []) :
      DrainMove c e (.settle lost) c.settle (.afterEmit lost)
  /-- The empty queue is signalled. -/
  | signal {e : LinkEvent} (lost : Bool) : DrainMove c e (.flush lost) c (.afterEmit lost)
  /-- `closed` is stored. -/
  | close {e : LinkEvent} : DrainMove c e .storeClosed c.storeClosed .wake
  /-- The task wakes itself up and returns. -/
  | wake {e : LinkEvent} : DrainMove c e .wake c.wake .returned

/-- Every step of the task is one of the moves. -/
theorem drainMove_of_drainStep {e : LinkEvent} {c c' : Cell} {pc pc' : DrainPc}
    (h : drainStep e c pc = some (c', pc')) : DrainMove c e pc c' pc' := by
  cases pc with
  | readClosed =>
    cases h
    cases hc : c.closed with
    | true => exact .stop hc
    | false => exact .goOn hc
  | pop =>
    simp only [drainStep, Cell.pop] at h
    cases hq : c.lane.queue with
    | nil => rw [hq] at h; cases h; exact .dry hq
    | cons f q => rw [hq] at h; cases h; exact .take f q hq
  | readFinished =>
    cases h
    cases hf : c.finished with
    | true => exact .complete hf
    | false => exact .idle hf
  | await =>
    simp only [drainStep] at h
    split at h
    · next n hn => cases h; exact .permit n hn
    · next n hn => cases h; exact .park n hn
  | parked =>
    simp only [drainStep] at h
    split at h
    · next hn => cases h; exact .woken hn
    · cases h
  | emit f =>
    cases e with
    | accepted => cases h; exact .accepted f
    | streamsExhausted => cases h; exact .exhausted f
    | refused => cases h; exact .refused f
    | failed => cases h; exact .failed f
    | slotFreed => cases h
    | slotLost => cases h
  | slotWait f =>
    cases e with
    | slotFreed => cases h; exact .slotFreed f
    | slotLost => cases h; exact .slotLost f
    | accepted => cases h
    | streamsExhausted => cases h
    | refused => cases h
    | failed => cases h
  | settle lost =>
    simp only [drainStep] at h
    cases hq : c.lane.queue with
    | nil => rw [hq] at h; cases h; exact .emptied lost hq
    | cons f q =>
      rw [hq] at h
      cases h
      exact .settled lost (by rw [hq]; exact List.cons_ne_nil f q)
  | flush lost => cases h; exact .signal lost
  | storeClosed => cases h; exact .close
  | wake => cases h; exact .wake
  | returned => cases h

/-! ### The task among pushes and one finish -/

/-- One subscriber: its cell, its drain task and the calls running on it. -/
structure DrainSys where
  /-- The shared fields. -/
  cell : Cell
  /-- The drain task. -/
  pc : DrainPc
  /-- The steps each running `push` or `finish` still has to make. -/
  calls : List (List CellOp)
  /-- `finish` was called. -/
  finishing : Bool

/-- Who moves. -/
inductive DrainAction
  /-- A `push` takes the lane lock. -/
  | push (onFull : DeliveryPolicy) (update : Frame)
  /-- `finish` takes the lane lock. -/
  | finish (endFrame : Frame)
  /-- The next step of a running call. -/
  | call (i : ℕ)
  /-- The next step of the drain task. -/
  | drain (e : LinkEvent)

namespace DrainSys

/-- A fresh subscriber whose task has just been spawned. -/
def init : DrainSys := ⟨Cell.new, .readClosed, [], false⟩

/-- Begin a call with its critical section. -/
def begin (op : CellOp) (s : DrainSys) : DrainSys :=
  { s with cell := op.exec s.cell, calls := s.calls ++ [op.followUps s.cell] }

variable (capacity : ℕ) (topic : Topic)

/-- One step of the system. -/
def step (s : DrainSys) : DrainAction → Option DrainSys
  | .push onFull update => some (s.begin (.offer capacity onFull topic update))
  | .finish f => if s.finishing then none else some { s.begin (.enqueueEnd f) with finishing := true }
  | .call i =>
      match s.calls[i]? with
      | some (op :: rest) =>
          some { s with
            cell := op.exec s.cell
            calls := s.calls.set i (op.followUps s.cell ++ rest) }
      | _ => none
  | .drain e => (drainStep e s.cell s.pc).map fun r => { s with cell := r.1, pc := r.2 }

/-- The atomic step a call makes under an action. -/
def opOf (s : DrainSys) : DrainAction → Option CellOp
  | .push onFull update => some (.offer capacity onFull topic update)
  | .finish f => some (.enqueueEnd f)
  | .call i => (s.calls[i]?).bind List.head?
  | .drain _ => none

/-- The link does not fail under this action. -/
def LinkUp : DrainAction → Prop
  | .drain e => e.lost = false
  | _ => True

instance : DecidablePred LinkUp
  | .drain e => inferInstanceAs (Decidable (e.lost = false))
  | .push _ _ => isTrue trivial
  | .finish _ => isTrue trivial
  | .call _ => isTrue trivial

/-- The condition on a step.  While the task stands between an empty pop and its
read of `finished`, nothing is enqueued once `finished` is stored, and `finished`
is not stored over a frame that was queued since that pop. -/
def Timely (s : DrainSys) (a : DrainAction) : Prop :=
  s.pc = .readFinished → ∀ op ∈ s.opOf capacity topic a,
    (s.cell.finished = true → op.enqueues s.cell = false) ∧
      (op.storesFinished = true → s.cell.lane.queue = [])

instance (s : DrainSys) (a : DrainAction) : Decidable (Timely capacity topic s a) :=
  inferInstanceAs (Decidable (_ → ∀ op ∈ s.opOf capacity topic a, _ ∧ _))

/-- Nothing is left on the lane: the queue is empty and every frame that entered
it was evicted by the policy or popped for emission. -/
def LeavesNothing (s : DrainSys) : Prop :=
  s.cell.lane.queue = [] ∧
    (s.cell.history.enqueued.map Sent.frame).Perm
      (s.cell.history.evicted ++ s.cell.history.popped)

/-! ### The invariant -/

/-- What holds of a subscriber that nobody closes and whose link stays up. -/
structure Inv (s : DrainSys) : Prop where
  /-- No frame is lost or invented. -/
  conserved : s.cell.Conserved
  /-- Nobody closed the subscriber. -/
  notClosed : s.cell.closed = false
  /-- Nor will a running call. -/
  callsOpen : ∀ ops ∈ s.calls, ∀ op ∈ ops, op.storesClosed = false
  /-- The task has not lost its link. -/
  linked : s.pc.linked = true
  /-- In the window before the read of `finished`, a stored flag means an empty
  queue. -/
  dry : s.pc = .readFinished → s.cell.finished = true → s.cell.lane.queue = []

theorem inv_init : Inv init where
  conserved := Cell.conserved_new
  notClosed := rfl
  callsOpen := by intro ops h; cases h
  linked := rfl
  dry := by intro h; cases h

/-- A timely step of a call keeps the queue empty in the window. -/
theorem dry_exec {s : DrainSys} (h : Inv s) {op : CellOp} (hpc : s.pc = .readFinished)
    (ht : (s.cell.finished = true → op.enqueues s.cell = false) ∧
      (op.storesFinished = true → s.cell.lane.queue = []))
    (hf : (op.exec s.cell).finished = true) : (op.exec s.cell).lane.queue = [] := by
  rw [CellOp.finished_exec, Bool.or_eq_true] at hf
  rcases hf with hf | hf
  · rw [CellOp.queue_exec_of_not_enqueues (ht.1 hf)]
    exact h.dry hpc hf
  · -- the store itself leaves the queue alone
    have hnot : op.enqueues s.cell = false := by
      cases op <;> simp_all [CellOp.storesFinished, CellOp.enqueues]
    rw [CellOp.queue_exec_of_not_enqueues hnot]
    exact ht.2 hf

variable {capacity : ℕ} {topic : Topic}

theorem inv_begin {s : DrainSys} (h : Inv s) {op : CellOp} (hclosed : op.storesClosed = false)
    (ht : s.pc = .readFinished → (s.cell.finished = true → op.enqueues s.cell = false) ∧
      (op.storesFinished = true → s.cell.lane.queue = [])) : Inv (s.begin op) where
  conserved := h.conserved.exec op
  notClosed := by
    show (op.exec s.cell).closed = false
    rw [CellOp.closed_exec, h.notClosed, hclosed]; rfl
  callsOpen := by
    intro ops hops
    rcases List.mem_append.mp hops with hops | hops
    · exact h.callsOpen ops hops
    · rw [List.mem_singleton] at hops
      subst hops
      exact fun op' hop' => CellOp.storesClosed_followUps hop'
  linked := h.linked
  dry := fun hpc hf => dry_exec h hpc (ht hpc) hf

theorem inv_call {s : DrainSys} (h : Inv s) {i : ℕ} {op : CellOp} {rest : List CellOp}
    (hi : s.calls[i]? = some (op :: rest))
    (ht : s.pc = .readFinished → (s.cell.finished = true → op.enqueues s.cell = false) ∧
      (op.storesFinished = true → s.cell.lane.queue = [])) :
    Inv { s with
      cell := op.exec s.cell
      calls := s.calls.set i (op.followUps s.cell ++ rest) } where
  conserved := h.conserved.exec op
  notClosed := by
    have hop := h.callsOpen _ (List.mem_of_getElem? hi) op List.mem_cons_self
    show (op.exec s.cell).closed = false
    rw [CellOp.closed_exec, h.notClosed, hop]; rfl
  callsOpen := by
    intro ops hops op' hop'
    rcases List.mem_or_eq_of_mem_set hops with hops | rfl
    · exact h.callsOpen ops hops op' hop'
    · rcases List.mem_append.mp hop' with hop' | hop'
      · exact CellOp.storesClosed_followUps hop'
      · exact h.callsOpen _ (List.mem_of_getElem? hi) op' (List.mem_cons_of_mem _ hop')
  linked := h.linked
  dry := fun hpc hf => dry_exec h hpc (ht hpc) hf

/-- What one step of the task does to an unclosed cell while the link is up. -/
theorem inv_drain {s : DrainSys} (h : Inv s) {e : LinkEvent} (he : e.lost = false)
    {c' : Cell} {pc' : DrainPc} (hst : drainStep e s.cell s.pc = some (c', pc')) :
    Inv { s with cell := c', pc := pc' } := by
  obtain ⟨hcons, hclosed, hcalls, hlinked, hdry⟩ := h
  generalize hpc : s.pc = pc at hst hlinked
  have hpop := hcons.pop
  unfold Cell.pop at hpop
  -- off the empty pop the task is not in the window
  cases drainMove_of_drainStep hst with
  | stop hc => rw [hclosed] at hc; cases hc
  | goOn => exact ⟨hcons, hclosed, hcalls, rfl, by intro h; cases h⟩
  | dry hq =>
    rw [hq] at hpop
    exact ⟨hpop, hclosed, hcalls, rfl, fun _ _ => rfl⟩
  | take f q hq =>
    rw [hq] at hpop
    exact ⟨hpop, hclosed, hcalls, rfl, by intro h; cases h⟩
  | complete => exact ⟨hcons, hclosed, hcalls, rfl, by intro h; cases h⟩
  | idle => exact ⟨hcons, hclosed, hcalls, rfl, by intro h; cases h⟩
  | permit n => exact ⟨hcons, hclosed, hcalls, rfl, by intro h; cases h⟩
  | park n => exact ⟨hcons, hclosed, hcalls, rfl, by intro h; cases h⟩
  | woken => exact ⟨hcons, hclosed, hcalls, rfl, by intro h; cases h⟩
  | accepted f => exact ⟨hcons, hclosed, hcalls, rfl, by intro h; cases h⟩
  | exhausted f => exact ⟨hcons, hclosed, hcalls, rfl, by intro h; cases h⟩
  | refused f => exact ⟨hcons, hclosed, hcalls, rfl, by intro h; cases h⟩
  | failed f => cases he
  | slotFreed f => exact ⟨hcons, hclosed, hcalls, rfl, by intro h; cases h⟩
  | slotLost f => cases he
  | emptied lost =>
    exact ⟨hcons, hclosed, hcalls, hlinked, by intro h; cases h⟩
  | settled lost =>
    cases lost with
    | false => exact ⟨hcons, hclosed, hcalls, rfl, by intro h; cases h⟩
    | true => cases hlinked
  | signal lost =>
    cases lost with
    | false => exact ⟨hcons, hclosed, hcalls, rfl, by intro h; cases h⟩
    | true => cases hlinked
  | close => cases hlinked
  | wake => cases hlinked

/-- **The step lemma**: a timely step over a live link keeps the invariant. -/
theorem inv_step {s s' : DrainSys} {a : DrainAction} (h : Inv s) (hup : LinkUp a)
    (ht : Timely capacity topic s a) (hst : s.step capacity topic a = some s') : Inv s' := by
  cases a with
  | push onFull update =>
    simp only [step, Option.some.injEq] at hst
    subst hst
    exact inv_begin h rfl fun hpc => ht hpc _ rfl
  | finish f =>
    simp only [step] at hst
    split at hst
    · cases hst
    · simp only [Option.some.injEq] at hst
      subst hst
      have hb : Inv (s.begin (.enqueueEnd f)) := inv_begin h rfl fun hpc => ht hpc _ rfl
      exact ⟨hb.conserved, hb.notClosed, hb.callsOpen, hb.linked, hb.dry⟩
  | call i =>
    simp only [step] at hst
    split at hst
    · next op rest hi =>
      simp only [Option.some.injEq] at hst
      subst hst
      exact inv_call h hi fun hpc => ht hpc op (by simp [opOf, hi])
    · cases hst
  | drain e =>
    simp only [step, Option.map_eq_some_iff] at hst
    obtain ⟨⟨c', pc'⟩, hd, rfl⟩ := hst
    exact inv_drain h hup hd

theorem inv_of_reaches {s : DrainSys}
    (h : Reaches (step capacity topic) (fun s a => LinkUp a ∧ Timely capacity topic s a) init s) :
    Inv s :=
  h.invariant inv_init fun _ _ _ _ hi hg hst => inv_step hi hg.1 hg.2 hst

/-! ### Returning -/

/-- Over a live link the task returns only from the read of `finished`. -/
theorem returned_of_readFinished {s : DrainSys} (h : Inv s) {e : LinkEvent} {c' : Cell}
    (hst : drainStep e s.cell s.pc = some (c', .returned)) :
    s.pc = .readFinished ∧ s.cell.finished = true ∧ c' = s.cell := by
  have hlinked := h.linked
  generalize s.pc = pc at hst hlinked ⊢
  generalize hret : DrainPc.returned = pc' at hst
  cases drainMove_of_drainStep hst with
  | stop hc => rw [h.notClosed] at hc; cases hc
  | complete hf => exact ⟨rfl, hf, rfl⟩
  | settled lost =>
    cases lost with
    | false => cases hret
    | true => cases hlinked
  | signal lost =>
    cases lost with
    | false => cases hret
    | true => cases hlinked
  | wake => cases hlinked
  | _ => cases hret

/-- A step that is not timely stands in the window, stores or has stored
`finished`, and leaves a frame queued: the task's next step strands it. -/
theorem stranded_of_not_timely {s s' : DrainSys} {a : DrainAction}
    (hst : s.step capacity topic a = some s') (ht : ¬ Timely capacity topic s a) :
    ∃ s'', s'.step capacity topic (.drain .accepted) = some s'' ∧ s''.pc = .returned ∧
      s''.cell.lane.queue ≠ [] := by
  unfold Timely at ht
  push Not at ht
  obtain ⟨hpc, op, hop, hbad⟩ := ht
  -- the action is one step `op` of a call, and the task does not move
  have hs' : s'.cell = op.exec s.cell ∧ s'.pc = .readFinished := by
    cases a with
    | push onFull update =>
      simp only [opOf, Option.mem_def, Option.some.injEq] at hop
      simp only [step, Option.some.injEq] at hst
      subst hop hst
      exact ⟨rfl, hpc⟩
    | finish f =>
      simp only [opOf, Option.mem_def, Option.some.injEq] at hop
      simp only [step] at hst
      split at hst
      · cases hst
      · simp only [Option.some.injEq] at hst
        subst hop hst
        exact ⟨rfl, hpc⟩
    | call i =>
      simp only [step] at hst
      split at hst
      · next op' rest hi =>
        simp only [opOf, hi, Option.bind_some, List.head?_cons, Option.mem_def,
          Option.some.injEq] at hop
        simp only [Option.some.injEq] at hst
        subst hop hst
        exact ⟨rfl, hpc⟩
      · cases hst
    | drain e => simp [opOf] at hop
  obtain ⟨hcell, hpc'⟩ := hs'
  have hcase : (op.exec s.cell).finished = true ∧ (op.exec s.cell).lane.queue ≠ [] := by
    rw [CellOp.finished_exec]
    by_cases henq : s.cell.finished = true ∧ op.enqueues s.cell = true
    · exact ⟨by simp [henq.1], CellOp.queue_exec_ne_nil henq.2⟩
    · have hstore := hbad (fun hf => by simpa [hf] using henq)
      have hnot : op.enqueues s.cell = false := by
        cases op <;> simp_all [CellOp.storesFinished, CellOp.enqueues]
      exact ⟨by simp [hstore.1], by
        rw [CellOp.queue_exec_of_not_enqueues hnot]; exact hstore.2⟩
  refine ⟨{ s' with pc := .returned }, ?_, rfl, ?_⟩
  · simp [step, hpc', drainStep, hcell, hcase.1]
  · rw [hcell]; exact hcase.2

/-- **A drain task that returns leaves nothing behind exactly under `Timely`.**
In every run over a live link whose steps are all timely, the returning task
finds the queue empty and every frame that was not evicted has been popped; and
after a step that is not timely the task's next step returns over a queued
frame. -/
theorem drain_leaves_nothing_iff_timely (capacity : ℕ) (topic : Topic) :
    (∀ s s' : DrainSys, ∀ e : LinkEvent, e.lost = false →
      Reaches (step capacity topic) (fun s a => LinkUp a ∧ Timely capacity topic s a) init s →
      s.step capacity topic (.drain e) = some s' → s'.pc = .returned → s'.LeavesNothing) ∧
    (∀ s s' : DrainSys, ∀ a : DrainAction,
      Reaches (step capacity topic) (fun _ a => LinkUp a) init s →
      s.step capacity topic a = some s' → ¬ Timely capacity topic s a →
      ∃ s'', s'.step capacity topic (.drain .accepted) = some s'' ∧ s''.pc = .returned ∧
        ¬ s''.LeavesNothing) := by
  refine ⟨?_, ?_⟩
  · intro s s' e _ hreach hst hret
    have hinv := inv_of_reaches hreach
    simp only [step, Option.map_eq_some_iff] at hst
    obtain ⟨⟨c', pc'⟩, hd, rfl⟩ := hst
    simp only at hret
    subst hret
    obtain ⟨hpc, hf, rfl⟩ := returned_of_readFinished hinv hd
    have hq := hinv.dry hpc hf
    refine ⟨hq, ?_⟩
    have hcons := hinv.conserved
    unfold Cell.Conserved at hcons
    rwa [hq, List.append_nil] at hcons
  · intro s s' a _ hst ht
    obtain ⟨s'', hst', hret, hq⟩ := stranded_of_not_timely hst ht
    exact ⟨s'', hst', hret, fun h => hq h.1⟩

/-! ### The interleaving that strands the end frame -/

/-- The task pops nothing, both steps of `finish` follow. -/
def strandingRun (f : Frame) : List DrainAction :=
  [.drain .accepted, .drain .accepted, .finish f, .call 0]

/-- **The end frame stays queued behind a returned task**, in a run over a live
link on a subscriber nobody closes: the task's next step reads `finished`. -/
theorem drain_strands_end_frame :
    ¬ ∀ (capacity : ℕ) (topic : Topic) (s s' : DrainSys) (e : LinkEvent), e.lost = false →
      Reaches (step capacity topic) (fun _ a => LinkUp a) init s →
      s.step capacity topic (.drain e) = some s' → s'.pc = .returned → s'.LeavesNothing := by
  intro h
  let f : Frame := ⟨utf8 (endPrefix ++ Topic.prices.name), 1, []⟩
  let c : Cell := ⟨⟨[f], false⟩, Notify.new, 0, false, true, ⟨[], [.completion f], [], [], []⟩⟩
  have hreach : Reaches (step 32 Topic.prices) (fun _ a => LinkUp a) init
      ⟨c, .readFinished, [[.wake]], true⟩ :=
    Reaches.of_runs (strandingRun f) .start rfl
  have hdry := h 32 Topic.prices _ ⟨c, .returned, [[.wake]], true⟩ .accepted rfl hreach rfl rfl
  exact List.cons_ne_nil f [] hdry.1

/-- The finished lane drained to its end: both steps of `finish` come before the
pop that finds the end frame. -/
def drainingRun (f : Frame) : List DrainAction :=
  [.finish f, .call 0, .call 0] ++ List.replicate 7 (.drain .accepted)

/-- A timely run in which the task emits the end frame and then returns. -/
theorem drain_leaves_nothing_after_finish :
    ∃ s s' : DrainSys,
      Reaches (step 32 Topic.prices)
        (fun s a => LinkUp a ∧ Timely 32 Topic.prices s a) init s ∧
      s.step 32 Topic.prices (.drain .accepted) = some s' ∧
      s'.cell.history.popped ≠ [] ∧ s'.LeavesNothing := by
  let f : Frame := ⟨utf8 (endPrefix ++ Topic.prices.name), 1, []⟩
  let c : Cell := ⟨⟨[], false⟩, ⟨true, []⟩, 0, false, true, ⟨[], [.completion f], [], [], [f]⟩⟩
  have hreach : Reaches (step 32 Topic.prices)
      (fun s a => LinkUp a ∧ Timely 32 Topic.prices s a) init ⟨c, .readFinished, [[]], true⟩ :=
    Reaches.of_runs (drainingRun f) .start rfl
  exact ⟨_, ⟨c, .returned, [[]], true⟩, hreach, rfl, List.cons_ne_nil f [],
    (drain_leaves_nothing_iff_timely 32 Topic.prices).1 _ _ .accepted rfl hreach rfl rfl⟩

end DrainSys
end Pubsub
end TightbeamExt
