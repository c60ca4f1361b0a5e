import TightbeamExt.Pubsub.Drain
import TightbeamExt.Pubsub.Quiesce

/-!
# Waiting for the queues to empty

`flushed` scans the live subscribers under the state lock and, while one is
pending, waits on a notification that drain tasks give with `notify_one` whenever
they leave a queue empty.  What it waits for can also end without that: the
subscriber is removed, or its drain task closes it over a lost link.  And one
`notify_one` wakes one caller.

`FlushSys` is a registry at the grain of atomic steps: the maps move with the
sections of `Node`, the lanes with the `CellOp`s a section is made of, the drain
tasks with `drainStep`, and every `flushed` caller with its own program counter.
A connection voted off by the policy is a `drop_connection` like any other.

## Main definitions

* `FlushSys.step b o` — the interleaved system.
* `LiveBut s gone` — some registered, not closed subscriber outside `gone` is pending.
* `Covered s wakes joins` — enough wake-ups are under way for the callers that wait.
* `Mindful s a` — a step that takes pending updates away leaves others, or leaves
  the callers covered.
* `Quiet s` — neither a drain task nor a caller can move.

## Main results

* `callFrame_of_step` — what a registry call does to the maps and the lock.
* `call_refines_node` — **a section nobody interrupts is the step of `Node`**.
-/

namespace TightbeamExt
namespace Pubsub

open Transition

/-! ### The system -/

/-- Where a `flushed` call stands. -/
inductive FlushedPc
  /-- About to take the state lock. -/
  | start
  /-- Under the lock, about to read `closed` of the next subscriber. -/
  | scan (todo : List SubscriberId)
  /-- It is not closed; about to read its lane. -/
  | read (id : SubscriberId) (todo : List SubscriberId)
  /-- Something is pending; about to poll the notification. -/
  | await
  /-- Parked on the notification. -/
  | parked
  /-- Returned. -/
  | returned
  deriving DecidableEq, Repr

/-- The call holds the state lock. -/
def FlushedPc.scanning : FlushedPc → Bool
  | .scan _ => true
  | .read _ _ => true
  | _ => false

/-- The call is about to wait. -/
def FlushedPc.awaits : FlushedPc → Bool
  | .await => true
  | _ => false

/-- The subscribers a scan still reads. -/
def FlushedPc.reads : FlushedPc → List SubscriberId
  | .scan todo => todo
  | .read id todo => id :: todo
  | _ => []

/-- The task is about to signal an emptied queue. -/
def DrainPc.signals : DrainPc → Bool
  | .flush _ => true
  | _ => false

/-- The task stands between a pop and the end of its emit. -/
def DrainPc.inFlight : DrainPc → Bool
  | .emit _ => true
  | .slotWait _ => true
  | .settle _ => true
  | _ => false

/-- A registry at the grain of atomic steps. -/
structure FlushSys where
  /-- The maps, the flag and the lanes. -/
  node : Node
  /-- What the section that holds the state lock still does to the lanes. -/
  work : List (SubscriberId × CellOp)
  /-- The drain tasks. -/
  tasks : List (SubscriberId × DrainPc)
  /-- The `flushed` calls. -/
  callers : List FlushedPc
  /-- What they wait on. -/
  flush : Notify ℕ

/-- Who moves. -/
inductive FlushAction
  /-- A registry call takes its step on the maps. -/
  | call (a : NodeAction)
  /-- The section goes on with the lanes. -/
  | work
  /-- A drain task. -/
  | drain (k : ℕ) (e : LinkEvent)
  /-- `flushed` is called. -/
  | flushed
  /-- A `flushed` call. -/
  | caller (j : ℕ)

/-- The subscriber is not closed and has a queued or in-flight update. -/
def Cell.live (c : Cell) : Prop := c.closed = false ∧ c.pending = true

instance (c : Cell) : Decidable c.live := inferInstanceAs (Decidable (_ ∧ _))

/-- The calls that take the state lock with this step. -/
def NodeAction.locks : NodeAction → Bool
  | .insertConnection _ => true
  | .registerCheck _ _ => true
  | .unregister _ _ => true
  | .dropConnection _ => true
  | .deliverCheck => true
  | .quiesceSnapshot => true
  | .quiesceFinish => true
  | _ => false

/-- Steps that are taken here by other means: the tasks have their own, and a
policy disconnect is a `drop_connection`. -/
def NodeAction.elsewhere : NodeAction → Bool
  | .drainPop _ => true
  | .drainSettle _ => true
  | .disconnect _ => true
  | _ => false

/-- The lane operations a section begins with. -/
def cellOps (b : FrameBuilder) (o : RegistryOptions) (n : Node) :
    NodeAction → List (SubscriberId × CellOp)
  | .unregister c t => (n.state.unregister c t).1.toList.filterMap fun id =>
      (n.state.subscribers.lookup id).map fun _ => (id, .storeClosed)
  | .dropConnection c => (n.state.dropConnection c).1.filterMap fun id =>
      (n.state.subscribers.lookup id).map fun _ => (id, .storeClosed)
  | .deliverBody t order payload policy =>
      match updateFrame b t order payload with
      | .error _ => []
      | .ok f => (n.members t).filterMap fun id =>
          (n.state.subscribers.lookup id).map fun sub =>
            (id, .offer o.queueCapacity (policy id) sub.topic f)
  | .quiesceFinish => n.quiesce.ends.flatMap fun e => e.members.filterMap fun id =>
      (n.state.subscribers.lookup id).map fun _ => (id, .enqueueEnd e.frame)
  | _ => []

/-- The subscribers a section removes from the maps. -/
def removed (n : Node) : NodeAction → List SubscriberId
  | .unregister c t => (n.state.unregister c t).1.toList
  | .dropConnection c => (n.state.dropConnection c).1
  | _ => []

/-- The drain tasks of the subscribers a section created. -/
def spawned (n n' : Node) : List (SubscriberId × DrainPc) :=
  (n'.subscriberIds.drop n.subscriberIds.length).map fun id => (id, .readClosed)

namespace FlushSys

/-- `TopicRegistry::new`. -/
def init : FlushSys := ⟨Node.init, [], [], [], Notify.new⟩

/-- The state lock is free. -/
def unlocked (s : FlushSys) : Bool :=
  s.node.unlocked && s.work.isEmpty && s.callers.all fun pc => !pc.scanning

/-- One lane changes. -/
def setCell (s : FlushSys) (id : SubscriberId) (c : Cell) : FlushSys :=
  { s with node := { s.node with cells := Function.update s.node.cells id c } }

/-- One caller moves. -/
def setCaller (s : FlushSys) (j : ℕ) (pc : FlushedPc) : FlushSys :=
  { s with callers := s.callers.set j pc }

/-- A registry call: the maps move as in `Node`, the lanes are left to `work`. -/
def call (b : FrameBuilder) (o : RegistryOptions) (a : NodeAction) (s : FlushSys) :
    Option FlushSys :=
  if a.elsewhere || (a.locks && !s.unlocked) then none
  else (s.node.step b o a).map fun n =>
    { s with
      node := { n with cells := s.node.cells, doomed := s.node.doomed }
      work := s.work ++ cellOps b o s.node a
      tasks := s.tasks ++ spawned s.node n }

/-- The next lane operation of the section at work. -/
def doWork (s : FlushSys) : Option FlushSys :=
  match s.work with
  | [] => none
  | (id, op) :: rest =>
      some { s.setCell id (op.exec (s.node.cells id)) with
        work := (op.followUps (s.node.cells id)).map (fun op' => (id, op')) ++ rest }

/-- The next step of a drain task. -/
def drain (k : ℕ) (e : LinkEvent) (s : FlushSys) : Option FlushSys :=
  match s.tasks[k]? with
  | none => none
  | some (id, pc) =>
      (drainStep e (s.node.cells id) pc).map fun r =>
        { s.setCell id r.1 with
          tasks := s.tasks.set k (id, r.2)
          flush := if pc.signals then s.flush.notifyOne else s.flush }

/-- The next step of a `flushed` call. -/
def caller (j : ℕ) (s : FlushSys) : Option FlushSys :=
  match s.callers[j]? with
  | none => none
  | some .start =>
      if s.unlocked then some (s.setCaller j (.scan s.node.state.subscribers.keys)) else none
  | some (.scan []) => some (s.setCaller j .returned)
  | some (.scan (id :: todo)) =>
      some (s.setCaller j (if (s.node.cells id).closed then .scan todo else .read id todo))
  | some (.read id todo) =>
      some (s.setCaller j (if (s.node.cells id).pending then .await else .scan todo))
  | some .await =>
      match s.flush.await j with
      | (true, n) => some { s.setCaller j .start with flush := n }
      | (false, n) => some { s.setCaller j .parked with flush := n }
  | some .parked => if s.flush.released j then some (s.setCaller j .start) else none
  | some .returned => none

/-- One step of the system. -/
def step (b : FrameBuilder) (o : RegistryOptions) (s : FlushSys) : FlushAction → Option FlushSys
  | .call a => s.call b o a
  | .work => s.doWork
  | .drain k e => s.drain k e
  | .flushed => some { s with callers := s.callers ++ [.start] }
  | .caller j => s.caller j

/-! ### The property and its condition -/

/-- A registered, not closed subscriber outside `gone` is pending. -/
def LiveBut (s : FlushSys) (gone : List SubscriberId) : Prop :=
  ∃ id ∈ s.node.state.subscribers.keys, id ∉ gone ∧ (s.node.cells id).live

/-- Some registered, not closed subscriber still has a queued or in-flight
update. -/
def LivePending (s : FlushSys) : Prop := s.LiveBut []

instance (s : FlushSys) (gone : List SubscriberId) : Decidable (s.LiveBut gone) :=
  inferInstanceAs (Decidable (∃ id ∈ s.node.state.subscribers.keys, _))

instance (s : FlushSys) : Decidable s.LivePending := inferInstanceAs (Decidable (s.LiveBut []))

/-- The callers about to wait. -/
def awaiting (s : FlushSys) : ℕ := s.callers.countP FlushedPc.awaits

/-- The signals under way. -/
def signalling (s : FlushSys) : ℕ := s.tasks.countP fun task => task.2.signals

/-- The callers that wait or are about to are covered by the stored permit and the
signals under way, `wakes` more signals and `joins` more callers included.  Only
one of them may be about to wait: signals that find nobody parked collapse into
one permit. -/
def Covered (s : FlushSys) (wakes joins : ℕ) : Prop :=
  s.awaiting + joins ≤ 1 ∧
    s.flush.waiters.length + s.awaiting + joins ≤ s.signalling + s.flush.permits + wakes

instance (s : FlushSys) (wakes joins : ℕ) : Decidable (s.Covered wakes joins) :=
  inferInstanceAs (Decidable (_ ∧ _))

/-- What a step takes away. -/
structure Loss where
  /-- The subscribers that are no longer live and pending. -/
  gone : List SubscriberId
  /-- The signals that come with it. -/
  wakes : ℕ
  /-- The callers that start to wait with it. -/
  joins : ℕ

/-- The steps that can take the last live pending update away: a removal, the end
of an emit over an empty queue, a lost link; and the scan that goes on to wait
for a subscriber that was closed since it looked. -/
def losses (s : FlushSys) : FlushAction → Option Loss
  | .call a => if removed s.node a = [] then none else some ⟨removed s.node a, 0, 0⟩
  | .drain k _ =>
      match s.tasks[k]? with
      | some (id, .settle _) =>
          if (s.node.cells id).lane.queue.isEmpty then some ⟨[id], 1, 0⟩ else none
      | some (id, .storeClosed) => some ⟨[id], 0, 0⟩
      | _ => none
  | .caller j =>
      match s.callers[j]? with
      | some (.read id _) =>
          if (s.node.cells id).closed && (s.node.cells id).pending then some ⟨[], 0, 1⟩ else none
      | _ => none
  | _ => none

/-- The condition on a step: what it takes away is not the last, or the callers
are covered. -/
def Mindful (s : FlushSys) (a : FlushAction) : Prop :=
  ∀ loss ∈ s.losses a, s.LiveBut loss.gone ∨ s.Covered loss.wakes loss.joins

instance (s : FlushSys) (a : FlushAction) : Decidable (s.Mindful a) :=
  inferInstanceAs (Decidable (∀ loss ∈ s.losses a, _ ∨ _))

/-- The drain task is parked, waits on its peer or has returned. -/
def idle (s : FlushSys) : SubscriberId × DrainPc → Bool
  | (id, .parked) => !(s.node.cells id).notify.released ()
  | (_, .emit _) => true
  | (_, .slotWait _) => true
  | (_, .returned) => true
  | _ => false

/-- No drain task and no `flushed` caller has a step it can take. -/
def Quiet (s : FlushSys) : Prop :=
  (∀ task ∈ s.tasks, s.idle task = true) ∧ ∀ j < s.callers.length, (s.caller j).isNone = true

instance (s : FlushSys) : Decidable s.Quiet := inferInstanceAs (Decidable (_ ∧ _))

end FlushSys

/-! ### What a registry call does to the maps -/

/-- What a registry call leaves of the maps and of the lock. -/
structure CallFrame (b : FrameBuilder) (o : RegistryOptions) (n n' : Node) (a : NodeAction) :
    Prop where
  /-- Whoever is not removed stays. -/
  stays : ∀ id ∈ n.state.subscribers.keys, id ∉ removed n a → id ∈ n'.state.subscribers.keys
  /-- At most one subscriber is created, under the next number. -/
  spawns : (n'.subscriberIds = n.subscriberIds ∧ n'.nextSubscriber = n.nextSubscriber) ∨
    (n'.subscriberIds = n.subscriberIds ++ [⟨n.nextSubscriber⟩] ∧
      n'.nextSubscriber = n.nextSubscriber + 1)
  /-- Without the lock nothing changes. -/
  lockless : a.locks = false → n.lock = .free →
    n'.lock = .free ∧ n'.state.subscribers = n.state.subscribers ∧ cellOps b o n a = []
  /-- A section that goes on with the lanes is past its check. -/
  unlocks : cellOps b o n a ≠ [] → n'.lock = .free
  /-- It closes only whom it removed. -/
  closes : ∀ id op, (id, op) ∈ cellOps b o n a → op.storesClosed = true →
    id ∉ n'.state.subscribers.keys

/-- The drain task of the subscriber a call created, if it created one. -/
theorem spawned_of_callFrame {b : FrameBuilder} {o : RegistryOptions} {n n' : Node} {a : NodeAction}
    (h : CallFrame b o n n' a) :
    (spawned n n' = [] ∧ n'.nextSubscriber = n.nextSubscriber) ∨
      (spawned n n' = [(⟨n.nextSubscriber⟩, .readClosed)] ∧
        n'.nextSubscriber = n.nextSubscriber + 1) := by
  rcases h.spawns with ⟨hids, hnext⟩ | ⟨hids, hnext⟩
  · exact .inl ⟨by simp [spawned, hids], hnext⟩
  · exact .inr ⟨by simp [spawned, hids], hnext⟩

theorem callFrame_of_frame {b : FrameBuilder} {o : RegistryOptions} {n n' : Node} {a : NodeAction}
    (hsub : n'.state.subscribers = n.state.subscribers) (hids : n'.subscriberIds = n.subscriberIds)
    (hnext : n'.nextSubscriber = n.nextSubscriber) (hops : cellOps b o n a = [])
    (hlock : a.locks = true ∨ n'.lock = n.lock ∨ n.lock ≠ .free) : CallFrame b o n n' a where
  stays := by rw [hsub]; exact fun _ hid _ => hid
  spawns := .inl ⟨hids, hnext⟩
  lockless := by
    intro ha hfree
    refine ⟨?_, hsub, hops⟩
    rcases hlock with hl | hl | hl
    · rw [hl] at ha; cases ha
    · rw [hl]; exact hfree
    · exact absurd hfree hl
  unlocks := fun hne => absurd hops hne
  closes := by rw [hops]; intro id op hmem; cases hmem

theorem not_mem_keys_of_lookup {n : Node} {id : SubscriberId}
    (h : n.state.subscribers.lookup id = none) : id ∉ n.state.subscribers.keys := by
  intro hmem
  obtain ⟨sub, hsub⟩ := Table.exists_lookup_of_mem hmem
  rw [h] at hsub
  cases hsub

/-- A section that removes the subscribers `ids` and closes them. -/
theorem callFrame_of_removal {b : FrameBuilder} {o : RegistryOptions} {n n' : Node}
    {a : NodeAction} {ids : List SubscriberId} (ha : a.locks = true) (hrem : removed n a = ids)
    (hlookup : ∀ id, n'.state.subscribers.lookup id =
      if id ∈ ids then none else n.state.subscribers.lookup id)
    (hids : n'.subscriberIds = n.subscriberIds) (hnext : n'.nextSubscriber = n.nextSubscriber)
    (hlock : n'.lock = .free)
    (hops : ∀ id op, (id, op) ∈ cellOps b o n a → id ∈ ids) : CallFrame b o n n' a where
  stays := by
    intro id hid hgone
    obtain ⟨sub, hsub⟩ := Table.exists_lookup_of_mem hid
    refine Table.mem_of_lookup (v := sub) ?_
    rw [hlookup, if_neg (by rw [← hrem]; exact hgone)]
    exact hsub
  spawns := .inl ⟨hids, hnext⟩
  lockless := by intro hl; rw [ha] at hl; cases hl
  unlocks := fun _ => hlock
  closes := by
    intro id op hmem _
    refine not_mem_keys_of_lookup ?_
    rw [hlookup, if_pos (hops id op hmem)]

theorem callFrame_unregister {b : FrameBuilder} {o : RegistryOptions} {n : Node}
    (hfree : n.lock = .free) (c : ConnectionId) (t : Topic) :
    CallFrame b o n (n.unregister c t) (.unregister c t) := by
  have hstate : (n.unregister c t).state = (n.state.unregister c t).2 := by
    unfold Node.unregister
    split <;> next hs => rw [hs]
  have hframe : (n.unregister c t).subscriberIds = n.subscriberIds ∧
      (n.unregister c t).nextSubscriber = n.nextSubscriber ∧
      (n.unregister c t).lock = n.lock := by
    unfold Node.unregister
    split <;> exact ⟨rfl, rfl, rfl⟩
  refine callFrame_of_removal rfl rfl ?_ hframe.1 hframe.2.1 (hframe.2.2.trans hfree) ?_
  · intro id
    rw [hstate]
    exact State.lookup_unregister n.state c t id
  · intro id op hmem
    simp only [cellOps, List.mem_filterMap, Option.map_eq_some_iff, Prod.mk.injEq] at hmem
    obtain ⟨id', hid', sub, -, rfl, -⟩ := hmem
    exact hid'

theorem callFrame_dropConnection {b : FrameBuilder} {o : RegistryOptions} {n : Node}
    (hfree : n.lock = .free) (c : ConnectionId) :
    CallFrame b o n (n.dropConnection c) (.dropConnection c) := by
  refine callFrame_of_removal rfl rfl ?_ rfl rfl hfree ?_
  · exact fun id => State.lookup_dropConnection n.state c id
  · intro id op hmem
    simp only [cellOps, List.mem_filterMap, Option.map_eq_some_iff, Prod.mk.injEq] at hmem
    obtain ⟨id', hid', sub, -, rfl, -⟩ := hmem
    exact hid'

/-- A section that only enqueues. -/
theorem callFrame_of_enqueues {b : FrameBuilder} {o : RegistryOptions} {n n' : Node}
    {a : NodeAction} (hlocked : a.locks = true ∨ n.lock ≠ .free)
    (hsub : n'.state.subscribers = n.state.subscribers) (hids : n'.subscriberIds = n.subscriberIds)
    (hnext : n'.nextSubscriber = n.nextSubscriber) (hlock : n'.lock = .free)
    (hops : ∀ id op, (id, op) ∈ cellOps b o n a → op.storesClosed = false) :
    CallFrame b o n n' a where
  stays := by rw [hsub]; exact fun _ hid _ => hid
  spawns := .inl ⟨hids, hnext⟩
  lockless := by
    intro ha hfree
    rcases hlocked with hl | hl
    · rw [hl] at ha; cases ha
    · exact absurd hfree hl
  unlocks := fun _ => hlock
  closes := by
    intro id op hmem hclose
    rw [hops id op hmem] at hclose
    cases hclose

theorem callFrame_registerBody {b : FrameBuilder} {o : RegistryOptions} {n : Node}
    {c : ConnectionId} {t : Topic} (hlock : n.lock = .registering c t) :
    CallFrame b o n (n.registerBody o c t) .registerBody := by
  have hbusy : n.lock ≠ .free := by rw [hlock]; exact fun hf => by cases hf
  unfold Node.registerBody
  split
  · next s hr =>
    refine ⟨?_, .inr ⟨rfl, rfl⟩, fun _ hfree => absurd hfree hbusy, fun _ => rfl, ?_⟩
    · intro id hid _
      simp only [(State.lookup_of_register hr).1]
      rw [AList.keys_insert]
      by_cases hfresh : id = ⟨n.nextSubscriber⟩
      · rw [hfresh]; exact List.mem_cons_self
      · exact List.mem_cons_of_mem _ ((List.mem_erase_of_ne hfresh).mpr hid)
    · intro id op hmem
      cases hmem
  · exact callFrame_of_frame rfl rfl rfl rfl (.inr (.inr hbusy))

theorem callFrame_deliverBody {b : FrameBuilder} {o : RegistryOptions} {n : Node}
    (hlock : n.lock = .delivering) (t : Topic) (order : ℕ) (payload : Octets)
    (policy : SubscriberId → DeliveryPolicy) :
    CallFrame b o n (n.deliverBody b o t order payload policy)
      (.deliverBody t order payload policy) := by
  have hbusy : n.lock ≠ .free := by rw [hlock]; exact fun hf => by cases hf
  have hframe : (n.deliverBody b o t order payload policy).state.subscribers =
      n.state.subscribers ∧
      (n.deliverBody b o t order payload policy).subscriberIds = n.subscriberIds ∧
      (n.deliverBody b o t order payload policy).nextSubscriber = n.nextSubscriber ∧
      (n.deliverBody b o t order payload policy).lock = .free := by
    unfold Node.deliverBody
    split <;> exact ⟨rfl, rfl, rfl, rfl⟩
  refine callFrame_of_enqueues (.inr hbusy) hframe.1 hframe.2.1 hframe.2.2.1 hframe.2.2.2 ?_
  intro id op hmem
  simp only [cellOps] at hmem
  split at hmem
  · cases hmem
  · simp only [List.mem_filterMap, Option.map_eq_some_iff, Prod.mk.injEq] at hmem
    obtain ⟨-, -, sub, -, -, rfl⟩ := hmem
    rfl

/-- **What a registry call does to the maps and the lock.** -/
theorem callFrame_of_step {b : FrameBuilder} {o : RegistryOptions} {n n' : Node} {a : NodeAction}
    (ha : a.elsewhere = false) (hst : n.step b o a = some n') : CallFrame b o n n' a := by
  cases Node.fires_of_step hst with
  | admitConnection handle identity => exact callFrame_of_frame rfl rfl rfl rfl (.inr (.inl rfl))
  | insertConnection a => exact callFrame_of_frame rfl rfl rfl rfl (.inl rfl)
  | registerCheck c t => exact callFrame_of_frame rfl rfl rfl rfl (.inl rfl)
  | registerBody c t hlock => exact callFrame_registerBody hlock
  | unregister c t hfree => exact callFrame_unregister hfree c t
  | dropConnection c hfree => exact callFrame_dropConnection hfree c
  | deliverCheck => exact callFrame_of_frame rfl rfl rfl rfl (.inl rfl)
  | deliverBody t order payload policy hlock => exact callFrame_deliverBody hlock t order payload policy
  | quiesceSwap => exact callFrame_of_frame rfl rfl rfl rfl (.inr (.inl rfl))
  | quiesceSnapshot => exact callFrame_of_frame rfl rfl rfl rfl (.inl rfl)
  | reserved f => exact callFrame_of_frame rfl rfl rfl rfl (.inr (.inl rfl))
  | failed cause => exact callFrame_of_frame rfl rfl rfl rfl (.inr (.inl rfl))
  | quiesceFinish ends hfree =>
    refine callFrame_of_enqueues (.inl rfl) (Node.subscribers_finishAll n ends) rfl rfl hfree ?_
    intro id op hmem
    simp only [cellOps, List.mem_flatMap, List.mem_filterMap, Option.map_eq_some_iff,
      Prod.mk.injEq] at hmem
    obtain ⟨-, -, -, -, -, -, -, rfl⟩ := hmem
    rfl
  | disconnect c => cases ha
  | drainPop id => cases ha
  | drainSettle id => cases ha

/-! ### A section run without interruption -/

/-- A lane operation with everything its call does after it. -/
def runOp (cells : SubscriberId → Cell) (p : SubscriberId × CellOp) : SubscriberId → Cell :=
  Function.update cells p.1 (CellOp.execAll (p.2.followUps (cells p.1)) (p.2.exec (cells p.1)))

/-- The lanes after a section nobody interrupts. -/
def runOps (ops : List (SubscriberId × CellOp)) (cells : SubscriberId → Cell) :
    SubscriberId → Cell :=
  ops.foldl runOp cells

/-- Going through a list of subscribers, each with at most one operation, is a
sweep. -/
theorem runOps_filterMap {g : SubscriberId → Option CellOp} {f : SubscriberId → Cell → Cell}
    (hnone : ∀ id c, g id = none → f id c = c)
    (hsome : ∀ id c op, g id = some op → f id c = CellOp.execAll (op.followUps c) (op.exec c)) :
    ∀ (ids : List SubscriberId) (cells : SubscriberId → Cell),
      runOps (ids.filterMap fun id => (g id).map fun op => (id, op)) cells = sweep f ids cells := by
  intro ids
  induction ids with
  | nil => intro cells; rfl
  | cons id ids ih =>
    intro cells
    have hsweep : sweep f (id :: ids) cells =
        sweep f ids (Function.update cells id (f id (cells id))) := rfl
    rw [hsweep, ← ih]
    cases hg : g id with
    | none =>
      rw [hnone id _ hg, Function.update_eq_self, List.filterMap_cons_none (by simp [hg])]
    | some op =>
      rw [hsome id _ op hg, List.filterMap_cons_some (by rw [hg]; rfl)]
      rfl

theorem runOps_close (s : State) (ids : List SubscriberId) (cells : SubscriberId → Cell) :
    runOps (ids.filterMap fun id =>
      (s.subscribers.lookup id).map fun _ => (id, CellOp.storeClosed)) cells =
        Node.closeAll s ids cells := by
  have h := runOps_filterMap (g := fun id => (s.subscribers.lookup id).map fun _ => .storeClosed)
    (f := fun id c => if (s.subscribers.lookup id).isSome then c.close else c) ?_ ?_ ids cells
  · simp only [Option.map_map, Function.comp_def] at h
    exact h
  · intro id c hid
    rw [Option.map_eq_none_iff] at hid
    simp [hid]
  · intro id c op hid
    rw [Option.map_eq_some_iff] at hid
    obtain ⟨sub, hsub, rfl⟩ := hid
    simpa [hsub] using Cell.close_eq_exec c

theorem runOps_push (o : RegistryOptions) (policy : SubscriberId → DeliveryPolicy) (f : Frame)
    (s : State) (ids : List SubscriberId) (cells : SubscriberId → Cell) :
    runOps (ids.filterMap fun id => (s.subscribers.lookup id).map fun sub =>
      (id, CellOp.offer o.queueCapacity (policy id) sub.topic f)) cells =
        sweep (Node.pushTo o policy f s) ids cells := by
  have h := runOps_filterMap
    (g := fun id => (s.subscribers.lookup id).map fun sub =>
      .offer o.queueCapacity (policy id) sub.topic f)
    (f := Node.pushTo o policy f s) ?_ ?_ ids cells
  · simp only [Option.map_map, Function.comp_def] at h
    exact h
  · intro id c hid
    rw [Option.map_eq_none_iff] at hid
    simp [Node.pushTo, hid]
  · intro id c op hid
    rw [Option.map_eq_some_iff] at hid
    obtain ⟨sub, hsub, rfl⟩ := hid
    simp only [Node.pushTo, hsub]
    exact Cell.push_eq_exec _ _ _ _ c

theorem runOps_finish (s : State) : ∀ (ends : List EndSignal) (cells : SubscriberId → Cell),
    runOps (ends.flatMap fun e => e.members.filterMap fun id =>
      (s.subscribers.lookup id).map fun _ => (id, CellOp.enqueueEnd e.frame)) cells =
        Node.finishCells s ends cells := by
  intro ends
  induction ends with
  | nil => intro cells; rfl
  | cons e ends ih =>
    intro cells
    have h := runOps_filterMap
      (g := fun id => (s.subscribers.lookup id).map fun _ => .enqueueEnd e.frame)
      (f := Node.finishTo s e.frame) ?_ ?_ e.members cells
    · have happ : ∀ ops ops' cells, runOps (ops ++ ops') cells = runOps ops' (runOps ops cells) :=
        fun _ _ _ => List.foldl_append
      rw [List.flatMap_cons, happ, ih]
      simp only [Option.map_map, Function.comp_def] at h
      rw [h]
      rfl
    · intro id c hid
      rw [Option.map_eq_none_iff] at hid
      simp [Node.finishTo, hid]
    · intro id c op hid
      rw [Option.map_eq_some_iff] at hid
      obtain ⟨sub, hsub, rfl⟩ := hid
      simpa [Node.finishTo, hsub] using Cell.finish_eq_exec e.frame c

/-- **A section run without interruption does to the lanes what the step of `Node`
does.**  A new subscriber's lane is new. -/
theorem runOps_cellOps {b : FrameBuilder} {o : RegistryOptions} {n n' : Node} {a : NodeAction}
    (ha : a.elsewhere = false) (hnew : n.cells ⟨n.nextSubscriber⟩ = Cell.new)
    (hst : n.step b o a = some n') : runOps (cellOps b o n a) n.cells = n'.cells := by
  cases Node.fires_of_step hst with
  | registerBody c t =>
    unfold Node.registerBody
    split
    · exact (Function.update_eq_self_iff.mpr hnew.symm).symm
    · rfl
  | unregister c t =>
    simp only [cellOps, runOps_close]
    unfold Node.unregister
    split
    · next s hs => rw [hs]; rfl
    · next id s hs => rw [hs]; rfl
  | dropConnection c => exact runOps_close _ _ _
  | deliverBody t order payload policy =>
    cases hf : updateFrame b t order payload with
    | error cause => simp only [cellOps, Node.deliverBody, hf]; rfl
    | ok f =>
      -- `last_order` is not what the loop goes through
      have hmembers : Node.members { n with
          state := n.state.setLastOrder t fun last => max last order } t = n.members t := by
        simp only [Node.members, State.setLastOrder, Table.lookup_modify, if_true]
        cases n.state.topics.lookup t <;> rfl
      simp only [cellOps, Node.deliverBody, hf, Node.fanOut, hmembers]
      exact runOps_push o policy f n.state (n.members t) n.cells
  | quiesceFinish ends hfree hq =>
    simp only [cellOps, hq, QuiescePc.ends]
    exact runOps_finish n.state ends n.cells
  | disconnect c => cases ha
  | drainPop id => cases ha
  | drainSettle id => cases ha
  | _ => rfl

namespace FlushSys

variable {b : FrameBuilder} {o : RegistryOptions} {s : FlushSys}

/-- What a registry call found and did. -/
theorem call_cases {a : NodeAction} {s' : FlushSys} (hst : s.call b o a = some s') :
    ∃ n, s.node.step b o a = some n ∧ a.elsewhere = false ∧
      (a.locks = true → s.unlocked = true) ∧
      s' = { s with
        node := { n with cells := s.node.cells, doomed := s.node.doomed }
        work := s.work ++ cellOps b o s.node a
        tasks := s.tasks ++ spawned s.node n } := by
  unfold call at hst
  split at hst
  · cases hst
  · next hcan =>
    simp only [Bool.or_eq_true, Bool.and_eq_true, Bool.not_eq_true', not_or, not_and,
      Bool.not_eq_true, Bool.not_eq_false] at hcan
    obtain ⟨n, hn, rfl⟩ := Option.map_eq_some_iff.mp hst
    exact ⟨n, hn, hcan.1, hcan.2, rfl⟩

/-- The lanes `cells`, and `work` still to do. -/
def withWork (s : FlushSys) (work : List (SubscriberId × CellOp)) (cells : SubscriberId → Cell) :
    FlushSys :=
  { s with node := { s.node with cells := cells }, work := work }

theorem runs_append_work (n m : ℕ) {s t : FlushSys}
    (h : runs (step b o) s (List.replicate n .work) = some t) :
    runs (step b o) s (List.replicate (n + m) .work) =
      runs (step b o) t (List.replicate m .work) := by
  induction n generalizing s with
  | zero =>
    rw [List.replicate_zero, runs, Option.some.injEq] at h
    rw [h, Nat.zero_add]
  | succ n ih =>
    rw [List.replicate_succ, runs, Option.bind_eq_some_iff] at h
    obtain ⟨s₁, hs₁, hrest⟩ := h
    rw [Nat.add_right_comm, List.replicate_succ, runs, hs₁, Option.bind_some]
    exact ih hrest

/-- Steps without follow-ups run one after the other. -/
theorem runs_followUps (id : SubscriberId) : ∀ (ops : List CellOp),
    (∀ op ∈ ops, ∀ c, op.followUps c = []) →
    ∀ (rest : List (SubscriberId × CellOp)) (cells : SubscriberId → Cell),
      runs (step b o) (s.withWork (ops.map (fun op => (id, op)) ++ rest) cells)
        (List.replicate ops.length .work) =
      some (s.withWork rest (Function.update cells id (CellOp.execAll ops (cells id)))) := by
  intro ops
  induction ops with
  | nil => intro _ rest cells; simp [runs, CellOp.execAll]
  | cons op ops ih =>
    intro hops rest cells
    rw [List.length_cons, List.replicate_succ, runs]
    have hstep : step b o (s.withWork ((op :: ops).map (fun op => (id, op)) ++ rest) cells) .work =
        some (s.withWork (ops.map (fun op => (id, op)) ++ rest)
          (Function.update cells id (op.exec (cells id)))) := by
      simp [step, doWork, withWork, setCell, hops op List.mem_cons_self]
    rw [hstep, Option.bind_some, ih fun op' hop' => hops op' (List.mem_cons_of_mem op hop')]
    simp [CellOp.execAll]

/-- The section at work comes to its end, and leaves `runOps` behind. -/
theorem runs_work : ∀ (ops : List (SubscriberId × CellOp)) (cells : SubscriberId → Cell),
    ∃ k, runs (step b o) (s.withWork ops cells) (List.replicate k .work) =
      some (s.withWork [] (runOps ops cells)) := by
  intro ops
  induction ops with
  | nil => intro cells; exact ⟨0, rfl⟩
  | cons p ops ih =>
    intro cells
    obtain ⟨id, op⟩ := p
    obtain ⟨k, hk⟩ := ih (runOp cells (id, op))
    refine ⟨1 + (op.followUps (cells id)).length + k, ?_⟩
    rw [runs_append_work _ k (t := s.withWork ops (runOp cells (id, op)))]
    · exact hk
    · rw [Nat.add_comm, List.replicate_succ, runs]
      have hstep : step b o (s.withWork ((id, op) :: ops) cells) .work =
          some (s.withWork ((op.followUps (cells id)).map (fun op' => (id, op')) ++ ops)
            (Function.update cells id (op.exec (cells id)))) := rfl
      rw [hstep, Option.bind_some, runs_followUps id _ fun op' hop' =>
        CellOp.followUps_followUps hop']
      simp [runOp]

/-- **Nobody interferes**: a call and the operations of its section lead to the
lanes and maps of the step of `Node`. -/
theorem call_refines_node {a : NodeAction} {s' : FlushSys} (hidle : s.work = [])
    (hnew : s.node.cells ⟨s.node.nextSubscriber⟩ = Cell.new) (hst : s.call b o a = some s') :
    ∃ n' k s'', s.node.step b o a = some n' ∧
      runs (step b o) s' (List.replicate k .work) = some s'' ∧
      s''.work = [] ∧ s''.node.cells = n'.cells ∧ s''.node.state = n'.state := by
  obtain ⟨n', hn, helse, -, rfl⟩ := call_cases hst
  simp only [hidle, List.nil_append]
  obtain ⟨k, hk⟩ := runs_work (b := b) (o := o)
    (s := { s with
      node := { n' with cells := s.node.cells, doomed := s.node.doomed }
      work := cellOps b o s.node a
      tasks := s.tasks ++ spawned s.node n' }) (cellOps b o s.node a) s.node.cells
  exact ⟨n', k, _, hn, hk, rfl, runOps_cellOps helse hnew hn, rfl⟩

end FlushSys
end Pubsub
end TightbeamExt
