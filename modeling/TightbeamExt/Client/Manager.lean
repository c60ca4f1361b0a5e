import TightbeamExt.Base.Transition
import TightbeamExt.Base.Table
import TightbeamExt.Client.Name
import TightbeamExt.Client.Gate

/-!
# The subscription manager as a step system

`SubscriptionManager` keeps a map of desired topics and talks to its server through
commands.  A command builds its frame, then reads the manager's client and emits on
it, then waits for the answer; the calling code goes on some time after the answer
is there.  Between any two of these points every other call may run, and `reattach`
may put another client in place.

A call that waits is a `Task`; the actions name which task moves and carry what the
environment decides — the fate of a command, of a decode, of a handler.  Old
clients stay around: commands are still in flight on them and their streams still
reach the dispatch handler.

What happened is on record in ghost fields: the acknowledged commands, every
removal from the map with its cause, the handles given out.

## Main definitions

* `Peer.serve` — a client's side of `serve`.
* `SubscriptionManager`, `SubscriptionManager.step` — the state and its steps.
* `SubscriptionManager.handleState` — what a handle reports.

## Main results

* `Grounded`, `grounded_of_reachable` — **the manager's own bookkeeping**: entries are
  mapped under their own topic, and a reattach replays each of them once.
-/

namespace TightbeamExt
namespace Client

open Transition Pubsub

/-! ### Clients -/

/-- A client object. -/
structure ClientId where
  /-- Its number. -/
  val : ℕ
  deriving DecidableEq, Repr

/-- The peer-serve modes of a client. -/
inductive ServeMode
  /-- `serve`. -/
  | unary
  /-- `serveStreaming`. -/
  | streaming
  /-- `serveDuplex`. -/
  | duplex
  deriving DecidableEq, Repr

/-- The fields of a client that `emit` and `serve` read. -/
structure Peer where
  /-- `close` has released the socket. -/
  released : Bool
  /-- Dispatch is exclusively claimed. -/
  serveClaimed : Bool
  /-- The mode the responder started in. -/
  serveMode : Option ServeMode
  deriving DecidableEq, Repr

/-- A client nobody has used yet. -/
def Peer.fresh : Peer := ⟨false, false, none⟩

/-- Why `serve` threw. -/
inductive ServeError
  /-- The client is closed. -/
  | connectionClosed
  /-- A prior exclusive claim owns the client. -/
  | serveDispatchClaimed
  /-- The responder started in another mode. -/
  | serveModeConflict (started : ServeMode)
  deriving DecidableEq, Repr

/-- `requireLive` and `claimServe`. -/
def Peer.serve (p : Peer) (mode : ServeMode) (exclusive : Bool) : Except ServeError Peer :=
  if p.released then .error .connectionClosed
  else if p.serveClaimed then .error .serveDispatchClaimed
  else
    match p.serveMode with
    | none => .ok ⟨p.released, exclusive, some mode⟩
    | some started =>
        if started = mode then .ok ⟨p.released, exclusive, some mode⟩
        else .error (.serveModeConflict started)

/-- Only a client that is up and free is claimed. -/
theorem Peer.serve_cases {p p' : Peer} {mode : ServeMode} {exclusive : Bool}
    (h : p.serve mode exclusive = .ok p') :
    p.released = false ∧ p.serveClaimed = false ∧ (p.serveMode = none ∨ p.serveMode = some mode) ∧
      p' = ⟨false, exclusive, some mode⟩ := by
  unfold Peer.serve at h
  split at h
  · cases h
  · next hlive =>
    split at h
    · cases h
    · next hfree =>
      rw [Bool.not_eq_true] at hlive hfree
      split at h
      · next hmode =>
        cases h
        exact ⟨hlive, hfree, .inl hmode, by rw [hlive]⟩
      · next started hmode =>
        split at h
        · next hsame =>
          cases h
          exact ⟨hlive, hfree, .inr (by rw [hmode, hsame]), by rw [hlive]⟩
        · cases h

/-! ### Entries and tasks -/

/-- An entry object. -/
structure EntryId where
  /-- Its number. -/
  val : ℕ
  deriving DecidableEq, Repr

/-- Where one subscription stands. -/
inductive SubscriptionState
  /-- The server acknowledged the `sub/` command. -/
  | live
  /-- Awaiting acknowledgment, or parked across a connection loss. -/
  | pending
  /-- Unsubscribed or completed by the server. -/
  | ended
  deriving DecidableEq, Repr

/-- Per-topic dispatch record. -/
structure Entry where
  /-- The topic its delivery path is built for. -/
  topic : TopicName
  /-- The gate. -/
  gate : TopicGate
  /-- A gap observer is installed. -/
  onGap : Bool
  /-- Where the subscription stands. -/
  state : SubscriptionState
  deriving DecidableEq

/-- The fate of a command. -/
inductive Outcome
  /-- The server answered `Ok`. -/
  | acknowledged
  /-- The server refused. -/
  | refused
  /-- The connection is gone. -/
  | lost
  deriving DecidableEq, Repr

/-- How far a command has come. -/
inductive Phase
  /-- Its frame is being built. -/
  | building
  /-- It is in flight on a client. -/
  | emitted (on : ClientId)
  /-- It has an answer the caller has not seen yet. -/
  | settled (on : ClientId) (o : Outcome)
  deriving DecidableEq, Repr

/-- Where the delivery of an update waits. -/
inductive Stage
  /-- The default resync: a `sub/` command. -/
  | resync (p : Phase)
  /-- The gap observer. -/
  | observing
  /-- The decode. -/
  | decoding
  /-- The update handler, or the pull channel. -/
  | handling
  deriving DecidableEq, Repr

/-- A call that waits. -/
inductive Task
  /-- `subscribe`. -/
  | subscribe (topic : TopicName) (entry : EntryId) (p : Phase)
  /-- `unsubscribe`. -/
  | unsubscribe (topic : TopicName) (p : Phase)
  /-- One replay of the reattach at index `group`. -/
  | replay (group : ℕ) (topic : TopicName) (entry : EntryId) (p : Phase)
  /-- The same once it is through. -/
  | replayed (group : ℕ) (topic : TopicName) (entry : EntryId) (on : ClientId) (o : Outcome)
  /-- `reattach`, waiting for its replays. -/
  | reattach
  /-- `deliverUpdate` of an update that came over `via`. -/
  | delivery (via : ClientId) (topic : TopicName) (entry : EntryId) (order : ℕ) (stage : Stage)
  /-- The call returned or threw. -/
  | finished
  deriving DecidableEq

namespace Task

/-- The command the task waits for. -/
def phase : Task → Option Phase
  | .subscribe _ _ p => some p
  | .unsubscribe _ p => some p
  | .replay _ _ _ p => some p
  | .delivery _ _ _ _ (.resync p) => some p
  | _ => none

/-- The same task with its command further on. -/
def setPhase (p : Phase) : Task → Task
  | .subscribe t e _ => .subscribe t e p
  | .unsubscribe t _ => .unsubscribe t p
  | .replay g t e _ => .replay g t e p
  | .delivery c t e n (.resync _) => .delivery c t e n (.resync p)
  | k => k

/-- The entry a `sub/` command is issued for. -/
def issuedFor : Task → Option EntryId
  | .subscribe _ e _ => some e
  | .replay _ _ e _ => some e
  | .delivery _ _ e _ (.resync _) => some e
  | _ => none

/-- The reattach a replay belongs to, and the entry it replays. -/
def replayOf : Task → Option (ℕ × EntryId)
  | .replay g _ e _ => some (g, e)
  | .replayed g _ e _ _ => some (g, e)
  | _ => none

/-- The topic and entry the task runs for. -/
def subject : Task → Option (TopicName × EntryId)
  | .subscribe t e _ => some (t, e)
  | .replay _ t e _ => some (t, e)
  | .replayed _ t e _ _ => some (t, e)
  | .delivery _ t e _ _ => some (t, e)
  | _ => none

@[simp] theorem replayOf_setPhase (p : Phase) (k : Task) : (k.setPhase p).replayOf = k.replayOf := by
  cases k with
  | delivery c t e n stage => cases stage <;> rfl
  | _ => rfl

@[simp] theorem subject_setPhase (p : Phase) (k : Task) : (k.setPhase p).subject = k.subject := by
  cases k with
  | delivery c t e n stage => cases stage <;> rfl
  | _ => rfl

@[simp] theorem issuedFor_setPhase (p : Phase) (k : Task) :
    (k.setPhase p).issuedFor = k.issuedFor := by
  cases k with
  | delivery c t e n stage => cases stage <;> rfl
  | _ => rfl

theorem phase_setPhase {p q : Phase} {k : Task} (h : k.phase = some q) :
    (k.setPhase p).phase = some p := by
  cases k with
  | delivery c t e n stage =>
    cases stage with
    | resync r => rfl
    | _ => cases h
  | subscribe t e r => rfl
  | unsubscribe t r => rfl
  | replay g t e r => rfl
  | replayed g t e c o => cases h
  | reattach => cases h
  | finished => cases h

end Task

/-! ### The manager -/

/-- Why an entry left the map. -/
inductive Cause
  /-- `unsubscribe`. -/
  | unsubscribed
  /-- An `end/` dispatch. -/
  | completed
  /-- The server refused a `sub/` command issued for this entry on this client. -/
  | refused (issuedFor : EntryId) (on : ClientId)
  deriving DecidableEq, Repr

/-- One removal from the map. -/
structure Removal where
  /-- The topic. -/
  topic : TopicName
  /-- The entry that was there. -/
  entry : EntryId
  /-- Why. -/
  cause : Cause
  /-- The manager's client at that time. -/
  holder : ClientId
  deriving DecidableEq

/-- The manager, its clients and the calls running on it. -/
structure SubscriptionManager where
  /-- The client commands are emitted on. -/
  client : ClientId
  /-- The desired topics.  The list is latest first. -/
  entries : Table TopicName EntryId
  /-- Every entry object built so far. -/
  heap : EntryId → Entry
  /-- The next entry object. -/
  nextEntry : ℕ
  /-- The client objects. -/
  peers : ClientId → Peer
  /-- The clients that dispatch to this manager. -/
  served : List ClientId
  /-- The calls, in the order they were made. -/
  tasks : List Task
  /-- The `sub/` commands a client acknowledged. -/
  acked : List (EntryId × ClientId)
  /-- The removals so far. -/
  removed : List Removal
  /-- The handles given out. -/
  handles : List (TopicName × EntryId)

/-- Who moves. -/
inductive Action
  /-- The application calls `subscribe`. -/
  | subscribe (topic : TopicName) (onGap : Bool)
  /-- The application calls `unsubscribe`. -/
  | unsubscribe (topic : TopicName)
  /-- The application calls `reattach`. -/
  | reattach (c : ClientId)
  /-- The application closes a client. -/
  | close (c : ClientId)
  /-- Somebody else serves on a client. -/
  | serve (c : ClientId) (mode : ServeMode) (exclusive : Bool)
  /-- `end/<topic>` arrives over a client. -/
  | complete (c : ClientId) (topic : TopicName)
  /-- An update arrives over a client. -/
  | update (c : ClientId) (topic : TopicName) (order : ℕ)
  /-- A command's frame is built. -/
  | emit (i : ℕ)
  /-- A command is answered. -/
  | settle (i : ℕ) (o : Outcome)
  /-- The call behind an answered command goes on. -/
  | resume (i : ℕ)
  /-- A reattach goes on after its replays. -/
  | endRefused (i : ℕ)
  /-- A gap observer returned or threw. -/
  | observed (i : ℕ)
  /-- A decode returned or threw. -/
  | decoded (i : ℕ) (ok : Bool)
  /-- An update handler returned or threw. -/
  | handled (i : ℕ) (ok : Bool)
  deriving DecidableEq

namespace SubscriptionManager

/-- What a handle over the entry reports. -/
def handleState (m : SubscriptionManager) (topic : TopicName) (e : EntryId) : SubscriptionState :=
  if m.entries.lookup topic = some e then (m.heap e).state else .ended

/-- `entries.delete(topic)`. -/
def delete (topic : TopicName) (cause : Cause) (m : SubscriptionManager) : SubscriptionManager :=
  match m.entries.lookup topic with
  | none => m
  | some e =>
      { m with
        entries := m.entries.erase topic
        removed := m.removed ++ [⟨topic, e, cause, m.client⟩] }

/-- A new call waits. -/
def spawn (k : Task) (m : SubscriptionManager) : SubscriptionManager :=
  { m with tasks := m.tasks ++ [k] }

/-- The call at index `i` stands at `k` now. -/
def setTask (i : ℕ) (k : Task) (m : SubscriptionManager) : SubscriptionManager :=
  { m with tasks := m.tasks.set i k }

/-- Change an entry object. -/
def modifyEntry (e : EntryId) (f : Entry → Entry) (m : SubscriptionManager) : SubscriptionManager :=
  { m with heap := Function.update m.heap e (f (m.heap e)) }

/-- `entry.state = "live"`. -/
def goLive (e : EntryId) (m : SubscriptionManager) : SubscriptionManager :=
  m.modifyEntry e fun x => { x with state := .live }

/-- `subscribe` up to its first await.  A topic that is already subscribed throws. -/
def subscribe (topic : TopicName) (onGap : Bool) (m : SubscriptionManager) : SubscriptionManager :=
  match m.entries.lookup topic with
  | some _ => m
  | none =>
      { m with
        entries := m.entries.insert topic ⟨m.nextEntry⟩
        heap := Function.update m.heap ⟨m.nextEntry⟩ ⟨topic, TopicGate.new, onGap, .pending⟩
        nextEntry := m.nextEntry + 1
        tasks := m.tasks ++ [.subscribe topic ⟨m.nextEntry⟩ .building] }

/-- `unsubscribe` up to its first await. -/
def unsubscribe (topic : TopicName) (m : SubscriptionManager) : SubscriptionManager :=
  match m.entries.lookup topic with
  | none => m
  | some _ => (m.delete topic .unsubscribed).spawn (.unsubscribe topic .building)

/-- The entries in the order of the map. -/
def mapped (m : SubscriptionManager) : List (TopicName × EntryId) :=
  (m.entries.entries.map fun x => (x.1, x.2)).reverse

/-- `reattach` up to its first await.  The client is in place before `install` may
throw. -/
def reattach (c : ClientId) (m : SubscriptionManager) : SubscriptionManager :=
  match (m.peers c).serve .unary true with
  | .error _ => { m with client := c }
  | .ok p =>
      { m with
        client := c
        peers := Function.update m.peers c p
        served := c :: m.served
        heap := fun e =>
          if e ∈ m.entries.entries.map Sigma.snd then
            { m.heap e with gate := (m.heap e).gate.reset, state := .pending }
          else m.heap e
        tasks := m.tasks ++ (.reattach ::
          m.mapped.map fun x => .replay m.tasks.length x.1 x.2 .building) }

/-- The start of `deliver` of an entry, unless it is gone. -/
def deliver (via : ClientId) (topic : TopicName) (e : EntryId) (order : ℕ)
    (m : SubscriptionManager) : Task :=
  if m.entries.lookup topic = some e then .delivery via topic e order .decoding else .finished

/-- `dispatch` of an update, up to its first await. -/
def update (via : ClientId) (topic : TopicName) (order : ℕ) (m : SubscriptionManager) :
    SubscriptionManager :=
  match m.entries.lookup topic with
  | none => m
  | some e =>
      match (m.heap e).gate.classify order, gapReport (m.heap e).gate order with
      | .stale, _ => m
      | _, some _ =>
          if (m.heap e).onGap then m.spawn (.delivery via topic e order .observing)
          else m.spawn (.delivery via topic e order (.resync .building))
      | _, none => m.spawn (m.deliver via topic e order)

/-- `command` past its build: the client is read now. -/
def emit (i : ℕ) (k : Task) (m : SubscriptionManager) : SubscriptionManager :=
  if (m.peers m.client).released then m.setTask i (k.setPhase (.settled m.client .lost))
  else m.setTask i (k.setPhase (.emitted m.client))

/-- The answer of a command in flight on `c`. -/
def settle (i : ℕ) (k : Task) (c : ClientId) (o : Outcome) (m : SubscriptionManager) :
    SubscriptionManager :=
  let m' := m.setTask i (k.setPhase (.settled c o))
  match o, k.issuedFor with
  | .acknowledged, some e => { m' with acked := m.acked ++ [(e, c)] }
  | _, _ => m'

/-- What follows the command in `subscribe`. -/
def subscribed (i : ℕ) (topic : TopicName) (e : EntryId) (c : ClientId) (m : SubscriptionManager) :
    Outcome → SubscriptionManager
  | .acknowledged => { (m.goLive e).setTask i .finished with handles := m.handles ++ [(topic, e)] }
  | .lost => { m.setTask i .finished with handles := m.handles ++ [(topic, e)] }
  | .refused => (m.delete topic (.refused e c)).setTask i .finished

/-- What follows the command in `resubscribe`. -/
def resubscribed (i group : ℕ) (topic : TopicName) (e : EntryId) (c : ClientId)
    (m : SubscriptionManager) : Outcome → SubscriptionManager
  | .acknowledged => (m.goLive e).setTask i (.replayed group topic e c .acknowledged)
  | o => m.setTask i (.replayed group topic e c o)

/-- The code behind an answered command. -/
def resume (i : ℕ) (m : SubscriptionManager) : Task → Option SubscriptionManager
  | .subscribe topic e (.settled c o) => some (m.subscribed i topic e c o)
  | .unsubscribe _ (.settled _ _) => some (m.setTask i .finished)
  | .replay group topic e (.settled c o) => some (m.resubscribed i group topic e c o)
  | .delivery via topic e order (.resync (.settled _ _)) =>
      some (m.setTask i (m.deliver via topic e order))
  | _ => none

/-- A refused replay. -/
structure Refusal where
  /-- The topic to end. -/
  topic : TopicName
  /-- Its entry. -/
  entry : EntryId
  /-- The client that refused. -/
  on : ClientId
  deriving DecidableEq

/-- The refusal a replay of the reattach `group` ended with. -/
def refusalOf (group : ℕ) : Task → Option Refusal
  | .replayed g topic e c .refused => if g = group then some ⟨topic, e, c⟩ else none
  | _ => none

/-- The refusals of a reattach. -/
def refusals (group : ℕ) (m : SubscriptionManager) : List Refusal :=
  m.tasks.filterMap (refusalOf group)

/-- A replay of the reattach `group` is still running. -/
def replaying (group : ℕ) (m : SubscriptionManager) : Bool :=
  m.tasks.any fun k =>
    match k with
    | .replay g _ _ _ => g = group
    | _ => false

/-- One round of the loop in `endRefused`. -/
def endOne (m : SubscriptionManager) (r : Refusal) : SubscriptionManager :=
  if m.entries.lookup r.topic = some r.entry then m.delete r.topic (.refused r.entry r.on) else m

/-- `reattach` after its replays. -/
def endRefused (i : ℕ) (m : SubscriptionManager) : SubscriptionManager :=
  ((m.refusals i).foldl endOne m).setTask i .finished

/-- The delivery of an update ended without reaching its handler's end. -/
def undelivered (i : ℕ) (e : EntryId) (order : ℕ) (m : SubscriptionManager) : SubscriptionManager :=
  (m.modifyEntry e fun x => { x with gate := x.gate.witness order }).setTask i .finished

/-- The delivery of an update is through: commit its stamp while the entry is
mapped. -/
def committed (i : ℕ) (topic : TopicName) (e : EntryId) (order : ℕ) (m : SubscriptionManager) :
    SubscriptionManager :=
  if m.entries.lookup topic = some e then
    (m.modifyEntry e fun x => { x with gate := x.gate.advance order }).setTask i .finished
  else m.setTask i .finished

/-- The code behind a gap observer, a decode and a handler. -/
def proceed (i : ℕ) (ok : Bool) (m : SubscriptionManager) : Task → SubscriptionManager
  | .delivery via topic e order .observing => m.setTask i (m.deliver via topic e order)
  | .delivery via topic e order .decoding =>
      if ok then
        if m.entries.lookup topic = some e then
          m.setTask i (.delivery via topic e order .handling)
        else m.setTask i .finished
      else m.undelivered i e order
  | .delivery _ topic e order .handling =>
      if ok then m.committed i topic e order else m.undelivered i e order
  | _ => m

/-- The task waits at this stage. -/
def waits (stage : Stage) : Task → Bool
  | .delivery _ _ _ _ s => s = stage
  | _ => false

/-- One step. -/
def step (m : SubscriptionManager) : Action → Option SubscriptionManager
  | .subscribe topic onGap => some (m.subscribe topic onGap)
  | .unsubscribe topic => some (m.unsubscribe topic)
  | .reattach c => some (m.reattach c)
  | .close c => some { m with peers := Function.update m.peers c { m.peers c with released := true } }
  | .serve c mode exclusive =>
      match (m.peers c).serve mode exclusive with
      | .error _ => some m
      | .ok p => some { m with peers := Function.update m.peers c p }
  | .complete c topic => if c ∈ m.served then some (m.delete topic .completed) else none
  | .update c topic order => if c ∈ m.served then some (m.update c topic order) else none
  | .emit i =>
      match m.tasks[i]? with
      | some k => if k.phase = some .building then some (m.emit i k) else none
      | none => none
  | .settle i o =>
      match m.tasks[i]? with
      | some k =>
          match k.phase with
          | some (.emitted c) => some (m.settle i k c o)
          | _ => none
      | none => none
  | .resume i =>
      match m.tasks[i]? with
      | some k => m.resume i k
      | none => none
  | .endRefused i =>
      if m.tasks[i]? = some .reattach ∧ m.replaying i = false then some (m.endRefused i) else none
  | .observed i =>
      match m.tasks[i]? with
      | some k => if waits .observing k then some (m.proceed i true k) else none
      | none => none
  | .decoded i ok =>
      match m.tasks[i]? with
      | some k => if waits .decoding k then some (m.proceed i ok k) else none
      | none => none
  | .handled i ok =>
      match m.tasks[i]? with
      | some k => if waits .handling k then some (m.proceed i ok k) else none
      | none => none

/-- The constructor, on clients `peers`: `install` claims the first client or
throws. -/
def new (peers : ClientId → Peer) (c : ClientId) : Except ServeError SubscriptionManager :=
  match (peers c).serve .unary true with
  | .error e => .error e
  | .ok p => .ok ⟨c, ∅, fun _ => ⟨TopicName.prices, TopicGate.new, false, .pending⟩, 0,
      Function.update peers c p, [c], [], [], [], []⟩

/-- A new manager has claimed its client, and nothing else happened. -/
theorem new_cases {peers : ClientId → Peer} {c : ClientId} {m : SubscriptionManager}
    (h : new peers c = .ok m) : ∃ p, (peers c).serve .unary true = .ok p ∧
      m = ⟨c, ∅, fun _ => ⟨TopicName.prices, TopicGate.new, false, .pending⟩, 0,
        Function.update peers c p, [c], [], [], [], []⟩ := by
  unfold new at h
  split at h
  · cases h
  · next p hserve =>
    cases h
    exact ⟨p, hserve, rfl⟩

theorem new_of_toOption {peers : ClientId → Peer} {c : ClientId} {m : SubscriptionManager}
    (h : (new peers c).toOption = some m) : new peers c = .ok m := by
  cases hn : new peers c with
  | error e => rw [hn] at h; cases h
  | ok m' => rw [hn] at h; cases h; rfl

/-! ### What the operations leave alone -/

/-- The same client, acknowledgments, handles and entry objects. -/
structure SameBooks (m m' : SubscriptionManager) : Prop where
  /-- The client in place. -/
  client : m'.client = m.client
  /-- The entry objects. -/
  heap : m'.heap = m.heap
  /-- How many of them there are. -/
  nextEntry : m'.nextEntry = m.nextEntry
  /-- The calls. -/
  tasks : m'.tasks = m.tasks
  /-- The acknowledgments. -/
  acked : m'.acked = m.acked

theorem SameBooks.refl (m : SubscriptionManager) : SameBooks m m := ⟨rfl, rfl, rfl, rfl, rfl⟩

theorem SameBooks.trans {m m' m'' : SubscriptionManager} (h : SameBooks m m')
    (h' : SameBooks m' m'') : SameBooks m m'' :=
  ⟨h'.client.trans h.client, h'.heap.trans h.heap, h'.nextEntry.trans h.nextEntry,
    h'.tasks.trans h.tasks, h'.acked.trans h.acked⟩

theorem sameBooks_delete (topic : TopicName) (cause : Cause) (m : SubscriptionManager) :
    SameBooks m (m.delete topic cause) := by
  unfold delete
  split
  · exact SameBooks.refl m
  · exact ⟨rfl, rfl, rfl, rfl, rfl⟩

theorem lookup_delete (topic t : TopicName) (cause : Cause) (m : SubscriptionManager) :
    (m.delete topic cause).entries.lookup t = if t = topic then none else m.entries.lookup t := by
  unfold delete
  split
  · next hnone =>
    split
    · next ht => rw [ht]; exact hnone
    · rfl
  · exact Table.lookup_erase_eq topic t m.entries

/-- A deletion is on record exactly when something was there. -/
theorem removed_delete (topic : TopicName) (cause : Cause) (m : SubscriptionManager) :
    (m.delete topic cause).removed = m.removed ++
      ((m.entries.lookup topic).map fun e => (⟨topic, e, cause, m.client⟩ : Removal)).toList := by
  unfold delete
  split
  · next hnone => simp [hnone]
  · next e he => simp [he]

theorem sameBooks_endOne (m : SubscriptionManager) (r : Refusal) : SameBooks m (m.endOne r) := by
  unfold endOne
  split
  · exact sameBooks_delete _ _ m
  · exact SameBooks.refl m

theorem sameBooks_foldl_endOne (rs : List Refusal) (m : SubscriptionManager) :
    SameBooks m (rs.foldl endOne m) := by
  induction rs generalizing m with
  | nil => exact SameBooks.refl m
  | cons r rs ih => exact (sameBooks_endOne m r).trans (ih (m.endOne r))

theorem lookup_endOne (m : SubscriptionManager) (r : Refusal) (t : TopicName) :
    (m.endOne r).entries.lookup t =
      if t = r.topic ∧ m.entries.lookup t = some r.entry then none else m.entries.lookup t := by
  unfold endOne
  split
  · next hmapped =>
    rw [lookup_delete]
    by_cases ht : t = r.topic
    · subst ht; simp [hmapped]
    · simp [ht]
  · next hmapped =>
    by_cases ht : t = r.topic
    · subst ht; simp [hmapped]
    · simp [ht]

/-- The loop of `endRefused` deletes the refused entries that are still mapped. -/
theorem lookup_foldl_endOne (rs : List Refusal) (m : SubscriptionManager) (t : TopicName) (e : EntryId) :
    (rs.foldl endOne m).entries.lookup t = some e ↔
      m.entries.lookup t = some e ∧ ∀ r ∈ rs, r.topic = t → r.entry ≠ e := by
  induction rs generalizing m with
  | nil => simp
  | cons r rs ih =>
    rw [List.foldl_cons, ih, lookup_endOne]
    constructor
    · rintro ⟨hone, hrest⟩
      split at hone
      · cases hone
      · next hnot =>
        refine ⟨hone, ?_⟩
        intro r' hr' ht
        rcases List.mem_cons.mp hr' with rfl | hr'
        · intro he
          exact hnot ⟨ht.symm, by rw [he]; exact hone⟩
        · exact hrest r' hr' ht
    · rintro ⟨hmapped, hall⟩
      refine ⟨?_, fun r' hr' => hall r' (List.mem_cons_of_mem r hr')⟩
      rw [if_neg]
      · exact hmapped
      · rintro ⟨ht, he⟩
        rw [hmapped, Option.some.injEq] at he
        exact hall r List.mem_cons_self ht.symm he.symm

/-- A change that keeps the topic of an entry keeps the topics of all. -/
theorem topic_modifyEntry {f : Entry → Entry} (hf : ∀ x, (f x).topic = x.topic)
    (e e' : EntryId) (m : SubscriptionManager) :
    ((m.modifyEntry e f).heap e').topic = (m.heap e').topic := by
  by_cases he : e' = e
  · subst he; simp [modifyEntry, hf]
  · simp [modifyEntry, he]

/-! ### The manager's own bookkeeping -/

/-- The entry was built, for this topic. -/
def Owns (m : SubscriptionManager) (t : TopicName) (e : EntryId) : Prop :=
  (m.heap e).topic = t ∧ e.val < m.nextEntry

/-- What the calls on a manager take for granted. -/
structure Grounded (m : SubscriptionManager) : Prop where
  /-- An entry is mapped under its own topic. -/
  mapped_own : ∀ t e, m.entries.lookup t = some e → m.Owns t e
  /-- A call runs for an entry of its topic. -/
  tasks_own : ∀ k ∈ m.tasks, ∀ t e, k.subject = some (t, e) → m.Owns t e
  /-- A replay belongs to an earlier reattach. -/
  groups : ∀ k ∈ m.tasks, ∀ g e, k.replayOf = some (g, e) → g < m.tasks.length
  /-- A reattach replays an entry once. -/
  once : (m.tasks.filterMap Task.replayOf).Nodup
  /-- An acknowledgment is on record before the call sees it. -/
  acks : ∀ k ∈ m.tasks, ∀ c e, k.phase = some (.settled c .acknowledged) → k.issuedFor = some e →
    (e, c) ∈ m.acked

/-- No entry is new, no topic changes and no acknowledgment is forgotten. -/
structure Advances (m m' : SubscriptionManager) : Prop where
  /-- Mapped is only what was mapped. -/
  entries : ∀ t e, m'.entries.lookup t = some e → m.entries.lookup t = some e
  /-- Entries keep their topics. -/
  heap : ∀ e, (m'.heap e).topic = (m.heap e).topic
  /-- There are no new ones. -/
  nextEntry : m'.nextEntry = m.nextEntry
  /-- Acknowledgments stay. -/
  acked : m.acked ⊆ m'.acked

theorem Advances.owns {m m' : SubscriptionManager} (h : Advances m m') {t : TopicName} {e : EntryId} :
    m'.Owns t e ↔ m.Owns t e := by
  rw [Owns, Owns, h.heap, h.nextEntry]

/-- A call that moves on keeps what it runs for. -/
theorem Grounded.set {m m' : SubscriptionManager} (h : Grounded m) (ha : Advances m m') {i : ℕ}
    {k k' : Task} (htasks : m'.tasks = m.tasks.set i k') (hk : m.tasks[i]? = some k)
    (hreplay : k'.replayOf = k.replayOf)
    (hsubject : ∀ x, k'.subject = some x → k.subject = some x)
    (hack : ∀ c e, k'.phase = some (.settled c .acknowledged) → k'.issuedFor = some e →
      (e, c) ∈ m'.acked) : Grounded m' := by
  have hmem : k ∈ m.tasks := List.mem_of_getElem? hk
  have hcases : ∀ x ∈ m'.tasks, x ∈ m.tasks ∨ x = k' := by
    intro x hx
    rw [htasks] at hx
    exact List.mem_or_eq_of_mem_set hx
  refine ⟨?_, ?_, ?_, ?_, ?_⟩
  · intro t e he
    exact ha.owns.mpr (h.mapped_own t e (ha.entries t e he))
  · intro x hx t e he
    refine ha.owns.mpr ?_
    rcases hcases x hx with hx | rfl
    · exact h.tasks_own x hx t e he
    · exact h.tasks_own k hmem t e (hsubject _ he)
  · intro x hx g e he
    rw [htasks, List.length_set]
    rcases hcases x hx with hx | rfl
    · exact h.groups x hx g e he
    · exact h.groups k hmem g e (hreplay ▸ he)
  · -- the replays read off the calls stay the same list
    have hsame : m'.tasks.map Task.replayOf = m.tasks.map Task.replayOf := by
      obtain ⟨hlt, rfl⟩ := List.getElem?_eq_some_iff.mp hk
      rw [htasks, List.map_set, hreplay, ← List.map_set, List.set_getElem_self]
    have hfilter : ∀ l : List Task, l.filterMap Task.replayOf = (l.map Task.replayOf).filterMap id := by
      intro l
      rw [List.filterMap_map]
      rfl
    rw [hfilter, hsame, ← hfilter]
    exact h.once
  · intro x hx c e hp hi
    rcases hcases x hx with hx | rfl
    · exact ha.acked (h.acks x hx c e hp hi)
    · exact hack c e hp hi

/-- New calls that replay nothing. -/
theorem Grounded.append {m m' : SubscriptionManager} (h : Grounded m) {ks : List Task}
    (htasks : m'.tasks = m.tasks ++ ks) (hacked : m'.acked = m.acked)
    (hold : ∀ t e, m.Owns t e → m'.Owns t e)
    (hmapped : ∀ t e, m'.entries.lookup t = some e → m'.Owns t e)
    (hks : ∀ k ∈ ks, k.replayOf = none ∧ (∀ t e, k.subject = some (t, e) → m'.Owns t e) ∧
      ∀ c, k.phase ≠ some (.settled c .acknowledged)) : Grounded m' := by
  refine ⟨hmapped, ?_, ?_, ?_, ?_⟩
  · intro x hx t e he
    rw [htasks, List.mem_append] at hx
    rcases hx with hx | hx
    · exact hold t e (h.tasks_own x hx t e he)
    · exact (hks x hx).2.1 t e he
  · intro x hx g e he
    rw [htasks, List.mem_append] at hx
    rw [htasks, List.length_append]
    rcases hx with hx | hx
    · have := h.groups x hx g e he
      omega
    · rw [(hks x hx).1] at he
      cases he
  · have hnone : ks.filterMap Task.replayOf = [] := by
      rw [List.filterMap_eq_nil_iff]
      exact fun k hk => (hks k hk).1
    rw [htasks, List.filterMap_append, hnone, List.append_nil]
    exact h.once
  · intro x hx c e hp hi
    rw [hacked]
    rw [htasks, List.mem_append] at hx
    rcases hx with hx | hx
    · exact h.acks x hx c e hp hi
    · exact absurd hp ((hks x hx).2.2 c)

/-! ### Every step keeps it -/

theorem mem_mapped {m : SubscriptionManager} {t : TopicName} {e : EntryId} :
    (t, e) ∈ m.mapped ↔ m.entries.lookup t = some e := by
  rw [mapped, List.mem_reverse, List.mem_map]
  constructor
  · rintro ⟨⟨t', e'⟩, hmem, heq⟩
    simp only [Prod.mk.injEq] at heq
    obtain ⟨rfl, rfl⟩ := heq
    exact AList.mem_lookup_iff.mpr hmem
  · intro h
    exact ⟨⟨t, e⟩, AList.mem_lookup_iff.mp h, rfl⟩

/-- No entry is mapped twice. -/
theorem Grounded.nodup_mapped {m : SubscriptionManager} (h : Grounded m) :
    (m.mapped.map Prod.snd).Nodup := by
  have hkeys : (m.mapped.map Prod.fst).Nodup := by
    rw [mapped, List.map_reverse, List.nodup_reverse, List.map_map]
    exact m.entries.nodupKeys
  refine List.Nodup.map_on ?_ (List.Nodup.of_map _ hkeys)
  rintro ⟨t, e⟩ hx ⟨t', e'⟩ hy heq
  obtain rfl : e = e' := heq
  have ht := (h.mapped_own t e (mem_mapped.mp hx)).1
  have ht' := (h.mapped_own t' e (mem_mapped.mp hy)).1
  rw [← ht, ← ht']

theorem grounded_new {peers : ClientId → Peer} {c : ClientId} {m : SubscriptionManager}
    (h : new peers c = .ok m) : Grounded m := by
  obtain ⟨p, _, rfl⟩ := new_cases h
  refine ⟨?_, ?_, ?_, List.nodup_nil, ?_⟩
  · intro t e he; simp at he
  · intro k hk; cases hk
  · intro k hk; cases hk
  · intro k hk; cases hk

theorem Grounded.subscribe {m : SubscriptionManager} (h : Grounded m) (topic : TopicName)
    (onGap : Bool) : Grounded (m.subscribe topic onGap) := by
  unfold SubscriptionManager.subscribe
  split
  · exact h
  · -- the new entry object is none of the old ones
    have hne : ∀ t e, m.Owns t e → e ≠ ⟨m.nextEntry⟩ := by
      rintro t e ⟨_, hlt⟩ rfl
      exact absurd hlt (lt_irrefl _)
    have hold : ∀ t e, m.Owns t e → Owns
        { m with
          entries := m.entries.insert topic ⟨m.nextEntry⟩
          heap := Function.update m.heap ⟨m.nextEntry⟩ ⟨topic, TopicGate.new, onGap, .pending⟩
          nextEntry := m.nextEntry + 1
          tasks := m.tasks ++ [.subscribe topic ⟨m.nextEntry⟩ .building] } t e := by
      intro t e he
      refine ⟨?_, Nat.lt_succ_of_lt he.2⟩
      simp only [Function.update_of_ne (hne t e he)]
      exact he.1
    refine h.append rfl rfl hold ?_ ?_
    · intro t e he
      rw [Table.lookup_insert_eq] at he
      split at he
      · next ht =>
        obtain rfl := Option.some.inj he
        subst ht
        exact ⟨by simp, Nat.lt_succ_self _⟩
      · exact hold t e (h.mapped_own t e he)
    · intro k hk
      rw [List.mem_singleton.mp hk]
      refine ⟨rfl, ?_, fun c => by simp [Task.phase]⟩
      intro t e he
      simp only [Task.subject, Option.some.injEq, Prod.mk.injEq] at he
      obtain ⟨rfl, rfl⟩ := he
      exact ⟨by simp, Nat.lt_succ_self _⟩

theorem Grounded.delete {m : SubscriptionManager} (h : Grounded m) (topic : TopicName) (cause : Cause) :
    Grounded (m.delete topic cause) := by
  have hb := sameBooks_delete topic cause m
  have howns : ∀ t e, (m.delete topic cause).Owns t e ↔ m.Owns t e := by
    intro t e
    rw [Owns, Owns, hb.heap, hb.nextEntry]
  have htasks : (m.delete topic cause).tasks = m.tasks ++ [] := by rw [hb.tasks, List.append_nil]
  refine h.append htasks hb.acked (fun t e => (howns t e).mpr) ?_ (by simp)
  intro t e he
  rw [lookup_delete] at he
  split at he
  · cases he
  · exact (howns t e).mpr (h.mapped_own t e he)

theorem Grounded.spawn {m : SubscriptionManager} (h : Grounded m) {k : Task}
    (hreplay : k.replayOf = none) (hsubject : ∀ t e, k.subject = some (t, e) → m.Owns t e)
    (hphase : ∀ c, k.phase ≠ some (.settled c .acknowledged)) : Grounded (m.spawn k) := by
  refine h.append rfl rfl (fun _ _ ho => ho) h.mapped_own ?_
  intro x hx
  rw [List.mem_singleton.mp hx]
  exact ⟨hreplay, hsubject, hphase⟩

theorem Grounded.unsubscribe {m : SubscriptionManager} (h : Grounded m) (topic : TopicName) :
    Grounded (m.unsubscribe topic) := by
  unfold SubscriptionManager.unsubscribe
  split
  · exact h
  · exact (h.delete topic _).spawn rfl (by simp [Task.subject]) (by simp [Task.phase])

theorem Grounded.update {m : SubscriptionManager} (h : Grounded m) (via : ClientId) (topic : TopicName)
    (order : ℕ) : Grounded (m.update via topic order) := by
  unfold SubscriptionManager.update
  split
  · exact h
  · next e he =>
    have hown := h.mapped_own topic e he
    have hsubject : ∀ stage t e', (Task.delivery via topic e order stage).subject = some (t, e') →
        m.Owns t e' := by
      intro stage t e' hx
      simp only [Task.subject, Option.some.injEq, Prod.mk.injEq] at hx
      obtain ⟨rfl, rfl⟩ := hx
      exact hown
    split
    · exact h
    · split
      · exact h.spawn rfl (hsubject _) (by simp [Task.phase])
      · exact h.spawn rfl (hsubject _) (by simp [Task.phase])
    · unfold deliver
      rw [if_pos he]
      exact h.spawn rfl (hsubject _) (by simp [Task.phase])

theorem Grounded.reattach {m : SubscriptionManager} (h : Grounded m) (c : ClientId) :
    Grounded (m.reattach c) := by
  unfold SubscriptionManager.reattach
  split
  · exact ⟨h.mapped_own, h.tasks_own, h.groups, h.once, h.acks⟩
  · refine ⟨?_, ?_, ?_, ?_, ?_⟩
    · intro t e he
      have hown := h.mapped_own t e he
      refine ⟨?_, hown.2⟩
      simp only
      split
      · exact hown.1
      · exact hown.1
    · intro k hk t e he
      have hown : m.Owns t e := by
        simp only [List.mem_append, List.mem_cons, List.mem_map] at hk
        rcases hk with hk | rfl | ⟨⟨t', e'⟩, hmem, rfl⟩
        · exact h.tasks_own k hk t e he
        · simp [Task.subject] at he
        · simp only [Task.subject, Option.some.injEq, Prod.mk.injEq] at he
          obtain ⟨rfl, rfl⟩ := he
          exact h.mapped_own _ _ (mem_mapped.mp hmem)
      refine ⟨?_, hown.2⟩
      simp only
      split
      · exact hown.1
      · exact hown.1
    · intro k hk g e he
      simp only [List.mem_append, List.mem_cons, List.mem_map] at hk
      simp only [List.length_append, List.length_cons]
      rcases hk with hk | rfl | ⟨⟨t', e'⟩, hmem, rfl⟩
      · have := h.groups k hk g e he
        omega
      · simp [Task.replayOf] at he
      · simp only [Task.replayOf, Option.some.injEq, Prod.mk.injEq] at he
        omega
    · -- the new replays are of a new reattach, one for each mapped entry
      have hnew : ((Task.reattach :: m.mapped.map fun x =>
          Task.replay m.tasks.length x.1 x.2 .building).filterMap Task.replayOf) =
          (m.mapped.map Prod.snd).map fun e => (m.tasks.length, e) := by
        rw [List.filterMap_cons_none rfl, List.filterMap_map, List.map_map]
        exact congrFun (List.filterMap_eq_map (f := (fun e => (m.tasks.length, e)) ∘ Prod.snd)) _
      rw [List.filterMap_append, hnew, List.nodup_append]
      refine ⟨h.once, h.nodup_mapped.map (fun _ _ heq => (Prod.mk.inj heq).2), ?_⟩
      rintro ⟨g, e⟩ hold ⟨g', e'⟩ hfresh heq
      obtain ⟨k, hk, hkr⟩ := List.mem_filterMap.mp hold
      have hlt := h.groups k hk g e hkr
      simp only [List.mem_map, Prod.mk.injEq] at hfresh heq
      obtain ⟨_, _, hg, _⟩ := hfresh
      omega
    · intro k hk c' e hp hi
      simp only [List.mem_append, List.mem_cons, List.mem_map] at hk
      rcases hk with hk | rfl | ⟨x, _, rfl⟩
      · exact h.acks k hk c' e hp hi
      · simp [Task.phase] at hp
      · simp [Task.phase] at hp

theorem Advances.setTask (m : SubscriptionManager) (i : ℕ) (k : Task) :
    Advances m (m.setTask i k) :=
  ⟨fun _ _ h => h, fun _ => rfl, rfl, List.Subset.refl _⟩

theorem Grounded.emit {m : SubscriptionManager} (h : Grounded m) {i : ℕ} {k : Task}
    (hk : m.tasks[i]? = some k) (hphase : k.phase = some .building) : Grounded (m.emit i k) := by
  unfold SubscriptionManager.emit
  split
  · refine h.set (Advances.setTask m i _) rfl hk (by simp) (by simp) ?_
    intro c e hp
    simp [Task.phase_setPhase hphase] at hp
  · refine h.set (Advances.setTask m i _) rfl hk (by simp) (by simp) ?_
    intro c e hp
    simp [Task.phase_setPhase hphase] at hp

/-- What an answer puts on record. -/
theorem acked_settle {m : SubscriptionManager} {i : ℕ} {k : Task} {c : ClientId} {o : Outcome} :
    (m.settle i k c o).acked = m.acked ++
      (if o = .acknowledged then k.issuedFor.toList.map fun e => (e, c) else []) := by
  unfold settle
  cases o with
  | acknowledged =>
    cases k.issuedFor with
    | none => simp [setTask]
    | some e => simp
  | refused => simp [setTask]
  | lost => simp [setTask]

theorem settle_eq {m : SubscriptionManager} {i : ℕ} {k : Task} {c : ClientId} {o : Outcome} :
    m.settle i k c o =
      { m.setTask i (k.setPhase (.settled c o)) with acked := (m.settle i k c o).acked } := by
  unfold settle
  cases o with
  | acknowledged => cases k.issuedFor <;> rfl
  | refused => rfl
  | lost => rfl

theorem Grounded.settle {m : SubscriptionManager} (h : Grounded m) {i : ℕ} {k : Task} {c : ClientId}
    (o : Outcome) (hk : m.tasks[i]? = some k) (hphase : k.phase = some (.emitted c)) :
    Grounded (m.settle i k c o) := by
  have hacked : m.acked ⊆ (m.settle i k c o).acked := by
    rw [acked_settle]
    exact List.subset_append_left _ _
  have hset := settle_eq (m := m) (i := i) (k := k) (c := c) (o := o)
  have htasks : (m.settle i k c o).tasks = m.tasks.set i (k.setPhase (.settled c o)) := by
    rw [hset]; rfl
  refine h.set ⟨?_, ?_, ?_, hacked⟩ htasks hk (by simp) (by simp) ?_
  · rw [hset]; exact fun _ _ he => he
  · rw [hset]; exact fun _ => rfl
  · rw [hset]; rfl
  · intro c' e hp hi
    rw [Task.phase_setPhase hphase] at hp
    simp only [Option.some.injEq, Phase.settled.injEq] at hp
    obtain ⟨rfl, rfl⟩ := hp
    rw [Task.issuedFor_setPhase] at hi
    rw [acked_settle]
    simp [hi]

/-- Setting an entry live changes no topic. -/
theorem Advances.goLive (m : SubscriptionManager) (e : EntryId) : Advances m (m.goLive e) :=
  ⟨fun _ _ h => h, fun e' => topic_modifyEntry (f := fun x => { x with state := .live })
    (fun _ => rfl) e e' m, rfl, List.Subset.refl _⟩

theorem Advances.delete (m : SubscriptionManager) (topic : TopicName) (cause : Cause) :
    Advances m (m.delete topic cause) := by
  have hb := sameBooks_delete topic cause m
  refine ⟨?_, fun e => by rw [hb.heap], hb.nextEntry, by rw [hb.acked]; exact List.Subset.refl _⟩
  intro t e he
  rw [lookup_delete] at he
  split at he
  · cases he
  · exact he

/-- A step that also moves a call on. -/
theorem Advances.then_setTask {m m' : SubscriptionManager} (h : Advances m m') (i : ℕ) (k : Task) :
    Advances m (m'.setTask i k) := ⟨h.entries, h.heap, h.nextEntry, h.acked⟩

/-- Which calls go on after an answer, and where to. -/
theorem resume_cases {m m' : SubscriptionManager} {i : ℕ} {k : Task} (h : m.resume i k = some m') :
    (∃ t e c o, k = .subscribe t e (.settled c o) ∧ m' = m.subscribed i t e c o) ∨
      (∃ t c o, k = .unsubscribe t (.settled c o) ∧ m' = m.setTask i .finished) ∨
      (∃ g t e c o, k = .replay g t e (.settled c o) ∧ m' = m.resubscribed i g t e c o) ∨
      ∃ via t e n c o, k = .delivery via t e n (.resync (.settled c o)) ∧
        m' = m.setTask i (m.deliver via t e n) := by
  unfold resume at h
  split at h
  · next t e c o => exact .inl ⟨t, e, c, o, rfl, (Option.some.inj h).symm⟩
  · next t c o => exact .inr (.inl ⟨t, c, o, rfl, (Option.some.inj h).symm⟩)
  · next g t e c o => exact .inr (.inr (.inl ⟨g, t, e, c, o, rfl, (Option.some.inj h).symm⟩))
  · next via t e n c o =>
    exact .inr (.inr (.inr ⟨via, t, e, n, c, o, rfl, (Option.some.inj h).symm⟩))
  · cases h

theorem Grounded.resume {m m' : SubscriptionManager} (h : Grounded m) {i : ℕ} {k : Task}
    (hk : m.tasks[i]? = some k) (hr : m.resume i k = some m') : Grounded m' := by
  rcases resume_cases hr with ⟨t, e, c, o, rfl, rfl⟩ | ⟨t, c, o, rfl, rfl⟩ |
    ⟨g, t, e, c, o, rfl, rfl⟩ | ⟨via, t, e, n, c, o, rfl, rfl⟩
  · cases o with
    | acknowledged =>
      have ha := Advances.goLive m e
      exact h.set ⟨ha.entries, ha.heap, ha.nextEntry, ha.acked⟩ rfl hk rfl
        (by simp [Task.subject]) (by simp [Task.phase])
    | lost =>
      exact h.set ⟨fun _ _ he => he, fun _ => rfl, rfl, List.Subset.refl _⟩ rfl hk rfl
        (by simp [Task.subject]) (by simp [Task.phase])
    | refused =>
      have htasks : ((m.delete t (.refused e c)).setTask i .finished).tasks =
          m.tasks.set i .finished := by
        rw [setTask, (sameBooks_delete t (.refused e c) m).tasks]
      exact h.set ((Advances.delete m t _).then_setTask i .finished) htasks hk rfl
        (by simp [Task.subject]) (by simp [Task.phase])
  · exact h.set (Advances.setTask m i _) rfl hk rfl (by simp [Task.subject]) (by simp [Task.phase])
  · cases o with
    | acknowledged =>
      exact h.set ((Advances.goLive m e).then_setTask i _) rfl hk rfl (by simp [Task.subject])
        (by simp [Task.phase])
    | lost =>
      exact h.set (Advances.setTask m i _) rfl hk rfl (by simp [Task.subject])
        (by simp [Task.phase])
    | refused =>
      exact h.set (Advances.setTask m i _) rfl hk rfl (by simp [Task.subject])
        (by simp [Task.phase])
  · unfold deliver
    split
    · exact h.set (Advances.setTask m i _) rfl hk rfl (by simp [Task.subject])
        (by simp [Task.phase])
    · exact h.set (Advances.setTask m i _) rfl hk rfl (by simp [Task.subject])
        (by simp [Task.phase])

theorem Grounded.endRefused {m : SubscriptionManager} (h : Grounded m) {i : ℕ}
    (hk : m.tasks[i]? = some .reattach) : Grounded (m.endRefused i) := by
  have hb := sameBooks_foldl_endOne (m.refusals i) m
  have ha : Advances m ((m.refusals i).foldl endOne m) := by
    refine ⟨?_, fun e => by rw [hb.heap], hb.nextEntry, by rw [hb.acked]; exact List.Subset.refl _⟩
    intro t e he
    exact ((lookup_foldl_endOne _ m t e).mp he).1
  have htasks : (m.endRefused i).tasks = m.tasks.set i .finished := by
    rw [SubscriptionManager.endRefused, setTask, hb.tasks]
  exact h.set (ha.then_setTask i .finished) htasks hk rfl (by simp [Task.subject])
    (by simp [Task.phase])

/-- A delivery that moves on: only gates change, and the call stays a delivery of its
entry or ends. -/
structure Proceeds (m m' : SubscriptionManager) (i : ℕ) : Prop where
  /-- The client in place. -/
  client : m'.client = m.client
  /-- The map. -/
  entries : m'.entries = m.entries
  /-- The entries but for their gates. -/
  heap : ∀ e, (m'.heap e).topic = (m.heap e).topic ∧ (m'.heap e).state = (m.heap e).state
  /-- How many entries there are. -/
  nextEntry : m'.nextEntry = m.nextEntry
  /-- The clients. -/
  peers : m'.peers = m.peers
  /-- The dispatching clients. -/
  served : m'.served = m.served
  /-- The acknowledgments. -/
  acked : m'.acked = m.acked
  /-- The removals. -/
  removed : m'.removed = m.removed
  /-- The call. -/
  tasks : ∃ k k', m.tasks[i]? = some k ∧ m'.tasks = m.tasks.set i k' ∧ k.phase = none ∧
    k'.phase = none ∧ k.replayOf = none ∧ k'.replayOf = none ∧
    (∀ x, k'.subject = some x → k.subject = some x) ∧ k' ≠ .reattach

theorem heap_modifyEntry {f : Entry → Entry}
    (hf : ∀ x, (f x).topic = x.topic ∧ (f x).state = x.state) (e e' : EntryId)
    (m : SubscriptionManager) :
    ((m.modifyEntry e f).heap e').topic = (m.heap e').topic ∧
      ((m.modifyEntry e f).heap e').state = (m.heap e').state := by
  by_cases he : e' = e
  · subst he; simpa [modifyEntry] using hf (m.heap e')
  · simp [modifyEntry, he]

/-- The stages of a delivery proceed. -/
theorem proceeds_proceed {m : SubscriptionManager} {i : ℕ} {ok : Bool} {stage : Stage} {k : Task}
    (hk : m.tasks[i]? = some k) (hw : waits stage k = true) (hs : ∀ p, stage ≠ .resync p) :
    Proceeds m (m.proceed i ok k) i := by
  have hset : ∀ via t e n x k', k = .delivery via t e n x → (∀ p, x ≠ .resync p) →
      k'.phase = none → k'.replayOf = none → (∀ y, k'.subject = some y → k.subject = some y) →
      k' ≠ .reattach → Proceeds m (m.setTask i k') i := by
    rintro via t e n x k' rfl hx hp hr hsub hne
    refine ⟨rfl, rfl, fun _ => ⟨rfl, rfl⟩, rfl, rfl, rfl, rfl, rfl, _, k', hk, rfl, ?_, hp, rfl, hr,
      hsub, hne⟩
    cases x with
    | resync p => exact absurd rfl (hx p)
    | _ => rfl
  have hgate : ∀ via t e n x (f : Entry → Entry), k = .delivery via t e n x →
      (∀ p, x ≠ .resync p) → (∀ y, (f y).topic = y.topic ∧ (f y).state = y.state) →
      Proceeds m ((m.modifyEntry e f).setTask i .finished) i := by
    rintro via t e n x f rfl hx hf
    refine ⟨rfl, rfl, fun e' => heap_modifyEntry hf e e' m, rfl, rfl, rfl, rfl, rfl, _, .finished,
      hk, rfl, ?_, rfl, rfl, rfl, by simp [Task.subject], by simp⟩
    cases x with
    | resync p => exact absurd rfl (hx p)
    | _ => rfl
  cases k with
  | delivery via t e n x =>
    obtain rfl : x = stage := by simpa [waits] using hw
    cases x with
    | resync p => exact absurd rfl (hs p)
    | observing =>
      simp only [proceed, deliver]
      split
      · exact hset via t e n _ _ rfl (by simp) rfl rfl (by simp [Task.subject]) (by simp)
      · exact hset via t e n _ _ rfl (by simp) rfl rfl (by simp [Task.subject]) (by simp)
    | decoding =>
      simp only [proceed]
      split
      · split
        · exact hset via t e n _ _ rfl (by simp) rfl rfl (by simp [Task.subject]) (by simp)
        · exact hset via t e n _ _ rfl (by simp) rfl rfl (by simp [Task.subject]) (by simp)
      · exact hgate via t e n _ _ rfl (by simp) (by simp)
    | handling =>
      simp only [proceed]
      split
      · unfold committed
        split
        · exact hgate via t e n _ _ rfl (by simp) (by simp)
        · exact hset via t e n _ _ rfl (by simp) rfl rfl (by simp [Task.subject]) (by simp)
      · exact hgate via t e n _ _ rfl (by simp) (by simp)
  | _ => cases hw

theorem Grounded.proceeds {m m' : SubscriptionManager} (h : Grounded m) {i : ℕ}
    (hp : Proceeds m m' i) : Grounded m' := by
  obtain ⟨k, k', hk, htasks, _, hphase, hreplay, hreplay', hsub, _⟩ := hp.tasks
  refine h.set ⟨?_, fun e => (hp.heap e).1, hp.nextEntry, ?_⟩ htasks hk (hreplay'.trans hreplay.symm)
    hsub ?_
  · rw [hp.entries]; exact fun _ _ he => he
  · rw [hp.acked]; exact List.Subset.refl _
  · intro c e hx
    rw [hphase] at hx
    cases hx

/-- Which delivery proceeds under an action. -/
theorem proceeds_of_step {m m' : SubscriptionManager} {i : ℕ} {ok : Bool} {stage : Stage}
    (hs : ∀ p, stage ≠ .resync p)
    (h : (match m.tasks[i]? with
      | some k => if waits stage k then some (m.proceed i ok k) else none
      | none => none) = some m') : Proceeds m m' i := by
  split at h
  · next k hk =>
    split at h
    · next hw =>
      cases h
      exact proceeds_proceed hk hw hs
    · cases h
  · cases h

/-- What a step found and did. -/
inductive Effect (m : SubscriptionManager) : Action → SubscriptionManager → Prop
  /-- `subscribe` ran up to its first await. -/
  | subscribe (topic : TopicName) (onGap : Bool) :
      Effect m (.subscribe topic onGap) (m.subscribe topic onGap)
  /-- So did `unsubscribe`. -/
  | unsubscribe (topic : TopicName) : Effect m (.unsubscribe topic) (m.unsubscribe topic)
  /-- And `reattach`. -/
  | reattach (c : ClientId) : Effect m (.reattach c) (m.reattach c)
  /-- A client was closed. -/
  | close (c : ClientId) : Effect m (.close c)
      { m with peers := Function.update m.peers c { m.peers c with released := true } }
  /-- Somebody else claimed a client. -/
  | claim {c : ClientId} {mode : ServeMode} {exclusive : Bool} (p : Peer)
      (hs : (m.peers c).serve mode exclusive = .ok p) :
      Effect m (.serve c mode exclusive) { m with peers := Function.update m.peers c p }
  /-- Somebody else could not. -/
  | unclaimed {c : ClientId} {mode : ServeMode} {exclusive : Bool} (e : ServeError)
      (hs : (m.peers c).serve mode exclusive = .error e) : Effect m (.serve c mode exclusive) m
  /-- A topic completed. -/
  | complete {c : ClientId} (topic : TopicName) (hc : c ∈ m.served) :
      Effect m (.complete c topic) (m.delete topic .completed)
  /-- An update was dispatched. -/
  | update {c : ClientId} (topic : TopicName) (order : ℕ) (hc : c ∈ m.served) :
      Effect m (.update c topic order) (m.update c topic order)
  /-- A command was emitted. -/
  | emit {i : ℕ} {k : Task} (hk : m.tasks[i]? = some k) (hp : k.phase = some .building) :
      Effect m (.emit i) (m.emit i k)
  /-- A command was answered. -/
  | settle {i : ℕ} {k : Task} {c : ClientId} (o : Outcome) (hk : m.tasks[i]? = some k)
      (hp : k.phase = some (.emitted c)) : Effect m (.settle i o) (m.settle i k c o)
  /-- A call went on after its answer. -/
  | resume {i : ℕ} {k : Task} {m' : SubscriptionManager} (hk : m.tasks[i]? = some k)
      (hr : m.resume i k = some m') : Effect m (.resume i) m'
  /-- A reattach went on after its replays. -/
  | endRefused {i : ℕ} (hk : m.tasks[i]? = some .reattach) (hr : m.replaying i = false) :
      Effect m (.endRefused i) (m.endRefused i)
  /-- A delivery went on after its gap observer. -/
  | observed {i : ℕ} {m' : SubscriptionManager} (hp : Proceeds m m' i) : Effect m (.observed i) m'
  /-- It went on after its decode. -/
  | decoded {i : ℕ} {ok : Bool} {m' : SubscriptionManager} (hp : Proceeds m m' i) :
      Effect m (.decoded i ok) m'
  /-- It went on after its handler. -/
  | handled {i : ℕ} {ok : Bool} {m' : SubscriptionManager} (hp : Proceeds m m' i) :
      Effect m (.handled i ok) m'

/-- Every step has one of the effects. -/
theorem step_effect {m m' : SubscriptionManager} {a : Action} (h : m.step a = some m') :
    Effect m a m' := by
  cases a with
  | subscribe topic onGap => cases h; exact .subscribe topic onGap
  | unsubscribe topic => cases h; exact .unsubscribe topic
  | reattach c => cases h; exact .reattach c
  | close c => cases h; exact .close c
  | serve c mode exclusive =>
    simp only [step] at h
    split at h
    · next e hs => cases h; exact .unclaimed e hs
    · next p hs => cases h; exact .claim p hs
  | complete c topic =>
    simp only [step] at h
    split at h
    · next hc => cases h; exact .complete topic hc
    · cases h
  | update c topic order =>
    simp only [step] at h
    split at h
    · next hc => cases h; exact .update topic order hc
    · cases h
  | emit i =>
    simp only [step] at h
    split at h
    · next k hk =>
      split at h
      · next hp => cases h; exact .emit hk hp
      · cases h
    · cases h
  | settle i o =>
    simp only [step] at h
    split at h
    · next k hk =>
      split at h
      · next c hp => cases h; exact .settle o hk hp
      · cases h
    · cases h
  | resume i =>
    simp only [step] at h
    split at h
    · next k hk => exact .resume hk h
    · cases h
  | endRefused i =>
    simp only [step] at h
    split at h
    · next hk => cases h; exact .endRefused hk.1 hk.2
    · cases h
  | observed i => exact .observed (proceeds_of_step (by simp) h)
  | decoded i ok => exact .decoded (proceeds_of_step (by simp) h)
  | handled i ok => exact .handled (proceeds_of_step (by simp) h)

/-- Every step keeps the bookkeeping. -/
theorem grounded_step {m m' : SubscriptionManager} {a : Action} (h : Grounded m)
    (hstep : m.step a = some m') : Grounded m' := by
  cases step_effect hstep with
  | subscribe topic onGap => exact h.subscribe topic onGap
  | unsubscribe topic => exact h.unsubscribe topic
  | reattach c => exact h.reattach c
  | close c => exact ⟨h.mapped_own, h.tasks_own, h.groups, h.once, h.acks⟩
  | claim p => exact ⟨h.mapped_own, h.tasks_own, h.groups, h.once, h.acks⟩
  | unclaimed e => exact h
  | complete topic => exact h.delete topic _
  | update topic order => exact h.update _ topic order
  | emit hk hp => exact h.emit hk hp
  | settle o hk hp => exact h.settle o hk hp
  | resume hk hr => exact h.resume hk hr
  | endRefused hk => exact h.endRefused hk
  | observed hp => exact h.proceeds hp
  | decoded hp => exact h.proceeds hp
  | handled hp => exact h.proceeds hp

theorem client_resume {m m' : SubscriptionManager} {i : ℕ} {k : Task} (h : m.resume i k = some m') :
    m'.client = m.client := by
  rcases resume_cases h with ⟨t, e, c, o, rfl, rfl⟩ | ⟨t, c, o, rfl, rfl⟩ |
    ⟨g, t, e, c, o, rfl, rfl⟩ | ⟨via, t, e, n, c, o, rfl, rfl⟩
  · cases o with
    | acknowledged => rfl
    | lost => rfl
    | refused => exact (sameBooks_delete t _ m).client
  · rfl
  · cases o <;> rfl
  · rfl

theorem client_reattach (m : SubscriptionManager) (c : ClientId) : (m.reattach c).client = c := by
  unfold reattach
  split <;> rfl

/-- Only a reattach puts another client in place. -/
theorem client_step {m m' : SubscriptionManager} {a : Action} (h : m.step a = some m')
    (ha : ∀ c, a ≠ .reattach c) : m'.client = m.client := by
  cases step_effect h with
  | subscribe topic onGap =>
    unfold subscribe
    split <;> rfl
  | unsubscribe topic =>
    unfold unsubscribe
    split
    · rfl
    · exact (sameBooks_delete topic _ m).client
  | reattach c => exact absurd rfl (ha c)
  | close c => rfl
  | claim p => rfl
  | unclaimed e => rfl
  | complete topic => exact (sameBooks_delete topic _ m).client
  | update topic order =>
    unfold update
    split
    · rfl
    · split
      · rfl
      · split <;> rfl
      · rfl
  | emit hk hp =>
    unfold emit
    split <;> rfl
  | settle o hk hp => rw [settle_eq]; rfl
  | resume hk hr => exact client_resume hr
  | endRefused hk => exact (sameBooks_foldl_endOne _ m).client
  | observed hp => exact hp.client
  | decoded hp => exact hp.client
  | handled hp => exact hp.client

/-- **The manager's own bookkeeping** holds in every run. -/
theorem grounded_of_reachable {peers : ClientId → Peer} {c : ClientId}
    {m₀ m : SubscriptionManager} (hnew : new peers c = .ok m₀) (h : Reachable step m₀ m) :
    Grounded m :=
  Reaches.invariant (I := Grounded) (grounded_new hnew)
    (fun _ _ _ _ hg _ hstep => grounded_step hg hstep) h

end SubscriptionManager
end Client
end TightbeamExt
