import TightbeamExt.Base.Transition
import TightbeamExt.Pubsub.Registry

/-!
# One registry node as a step system

A `Node` is a `TopicRegistry`: the maps under the state lock, the cells of its
subscribers, the `draining` flag, the id counters, and how far the calls running
on it have come.  The flag is read and written without the lock, so a critical
section that reads it is two steps — `registerCheck` then `registerBody`,
`deliverCheck` then `deliverBody` — with the lock held in between; a section that
does not read it is one step.  `quiesce` is a swap of the flag, a snapshot under
the lock, one stamp per topic with no lock held, and a second section that
enqueues the end frames.

The stamps and the updates come from a backplane outside the node and are part of
the actions here.

The id counters are `AtomicU64`s.  The maps are keyed by the untruncated count;
what a caller is handed is its value modulo `2 ^ 64`.

## Main results

* `Inv`, `inv_step` — the invariant of a node and its step lemma.
* `registry_maps_coherent` — **the three maps agree in every reachable state**, and
  no id is handed out twice.
-/

namespace TightbeamExt
namespace Pubsub

open Transition

/-! ### The state of a node -/

/-- Registry construction knobs. -/
structure RegistryOptions where
  /-- Bounded queue length per subscriber. -/
  queueCapacity : ℕ
  /-- Cap on live subscriptions one connection may hold. -/
  maxSubscriptionsPerConnection : ℕ
  deriving DecidableEq, Repr

/-- `RegistryOptions::default`. -/
def RegistryOptions.default : RegistryOptions := ⟨32, 64⟩

/-- Who holds the state lock between two steps. -/
inductive Holder
  /-- Nobody. -/
  | free
  /-- `register`, past its draining check. -/
  | registering (c : ConnectionId) (t : Topic)
  /-- `deliver`, past its draining check. -/
  | delivering

/-- A connection whose id is allocated and which is not inserted yet. -/
structure Admission where
  /-- The allocated id. -/
  connection : ConnectionId
  /-- The emit handle. -/
  handle : MuxHandle
  /-- The attached identity. -/
  identity : Option Octets

/-- One completed topic of a `quiesce`: the claimed stamp, the members of the
snapshot and the end frame. -/
structure EndSignal where
  /-- The topic. -/
  topic : Topic
  /-- The reserved stamp. -/
  order : ℕ
  /-- The snapshotted members. -/
  members : List SubscriberId
  /-- The built frame. -/
  frame : Frame

/-- How far the one `quiesce` call that won the swap has come. -/
inductive QuiescePc
  /-- Nobody called it. -/
  | idle
  /-- The flag is set. -/
  | swapped
  /-- The snapshot is taken: topics still to stamp, end frames built so far. -/
  | reserving (todo : List (Topic × List SubscriberId)) (ends : List EndSignal)
  /-- It returned `Ok`. -/
  | done (signaled : ℕ)
  /-- It returned an error. -/
  | failed (cause : TightBeamError)

/-- One registry node. -/
structure Node where
  /-- The draining flag. -/
  draining : Bool
  /-- The next connection number. -/
  nextConnection : ℕ
  /-- The next subscriber number. -/
  nextSubscriber : ℕ
  /-- The maps. -/
  state : State
  /-- The mutable fields of every subscriber ever created. -/
  cells : SubscriberId → Cell
  /-- The state lock. -/
  lock : Holder
  /-- `admit_connection` calls between their two steps. -/
  admitting : List Admission
  /-- Connections the policy voted off and nobody disconnected yet. -/
  doomed : List ConnectionId
  /-- The `quiesce` call at work. -/
  quiesce : QuiescePc
  /-- Every connection id handed out. -/
  connectionIds : List ConnectionId
  /-- Every subscriber id handed out. -/
  subscriberIds : List SubscriberId

namespace Node

/-- `TopicRegistry::new`. -/
def init : Node :=
  ⟨false, 1, 1, State.empty, fun _ => Cell.new, .free, [], [], .idle, [], []⟩

/-! ### The sections -/

/-- Close the cells of the removed subscribers. -/
def closeAll (s : State) (ids : List SubscriberId) (cells : SubscriberId → Cell) :
    SubscriberId → Cell :=
  sweep (fun id c => if (s.subscribers.lookup id).isSome then c.close else c) ids cells

/-- `unregister`. -/
def unregister (c : ConnectionId) (t : Topic) (n : Node) : Node :=
  match n.state.unregister c t with
  | (none, s) => { n with state := s }
  | (some id, s) => { n with state := s, cells := closeAll n.state [id] n.cells }

/-- `drop_connection`. -/
def dropConnection (c : ConnectionId) (n : Node) : Node :=
  match n.state.dropConnection c with
  | (ids, s) => { n with state := s, cells := closeAll n.state ids n.cells }

/-- The members `fan_out` visits. -/
def members (n : Node) (t : Topic) : List SubscriberId :=
  match n.state.topics.lookup t with
  | none => []
  | some entry => entry.members.keys

/-- What `push` does to the cell of a member. -/
def pushTo (o : RegistryOptions) (policy : SubscriberId → DeliveryPolicy) (update : Frame)
    (s : State) (id : SubscriberId) (c : Cell) : Cell :=
  match s.subscribers.lookup id with
  | none => c
  | some subscriber => (c.push o.queueCapacity (policy id) subscriber.topic update).1

/-- The connection a `push` to a member gives up on.  Members are distinct, so
each is visited with the cell the loop started with. -/
def doomedBy (o : RegistryOptions) (policy : SubscriberId → DeliveryPolicy) (update : Frame)
    (n : Node) (id : SubscriberId) : Option ConnectionId :=
  match n.state.subscribers.lookup id with
  | none => none
  | some subscriber =>
      match ((n.cells id).push o.queueCapacity (policy id) subscriber.topic update).2 with
      | .disconnect => some subscriber.connection
      | _ => none

/-- `fan_out`: enqueue `update` to every member, collecting the connections the
delivery policy voted off. -/
def fanOut (o : RegistryOptions) (policy : SubscriberId → DeliveryPolicy) (t : Topic)
    (update : Frame) (n : Node) : Node :=
  { n with
    cells := sweep (pushTo o policy update n.state) (n.members t) n.cells
    doomed := n.doomed ++ (n.members t).filterMap (doomedBy o policy update n) }

/-- The snapshot of `quiesce`: every topic with its members. -/
def snapshot (n : Node) : List (Topic × List SubscriberId) :=
  n.state.topics.entries.map fun e => (e.1, e.2.members.keys)

/-- What the last section of `quiesce` does to the cell of a snapshotted member. -/
def finishTo (s : State) (f : Frame) (id : SubscriberId) (c : Cell) : Cell :=
  if (s.subscribers.lookup id).isSome then c.finish f else c

/-- The members of an end signal that are still registered. -/
def signals (s : State) (e : EndSignal) : List SubscriberId :=
  e.members.filter fun id => (s.subscribers.lookup id).isSome

/-- The last section of `quiesce`: enqueue the end frames. -/
def finishAll (ends : List EndSignal) (n : Node) : Node :=
  { n with
    state := ends.foldl (fun s e => s.setLastOrder e.topic fun _ => e.order) n.state
    cells := ends.foldl (fun cells e => sweep (finishTo n.state e.frame) e.members cells) n.cells
    quiesce := .done (ends.map fun e => (signals n.state e).length).sum }

/-! ### Actions -/

end Node

/-- The steps of a node. -/
inductive NodeAction
  /-- `admit_connection` allocates an id. -/
  | admitConnection (handle : MuxHandle) (identity : Option Octets)
  /-- It inserts the connection. -/
  | insertConnection (i : ℕ)
  /-- `register` takes the lock and reads `draining` as false. -/
  | registerCheck (c : ConnectionId) (t : Topic)
  /-- It runs to its end. -/
  | registerBody
  /-- `unregister`. -/
  | unregister (c : ConnectionId) (t : Topic)
  /-- `drop_connection`. -/
  | dropConnection (c : ConnectionId)
  /-- `deliver` takes the lock and reads `draining` as false. -/
  | deliverCheck
  /-- It builds the frame, fans out and lets go of the lock. -/
  | deliverBody (t : Topic) (order : ℕ) (payload : Octets) (policy : SubscriberId → DeliveryPolicy)
  /-- `disconnect` of a connection the policy voted off. -/
  | disconnect (c : ConnectionId)
  /-- `quiesce` swaps the flag. -/
  | quiesceSwap
  /-- It takes the snapshot. -/
  | quiesceSnapshot
  /-- It was given a stamp for its next topic and builds the end frame. -/
  | quiesceReserve (order : ℕ)
  /-- It enqueues the end frames. -/
  | quiesceFinish
  /-- A drain task pops. -/
  | drainPop (id : SubscriberId)
  /-- A drain task clears `in_flight`. -/
  | drainSettle (id : SubscriberId)

namespace Node

/-- The lock is free. -/
def unlocked (n : Node) : Bool :=
  match n.lock with
  | .free => true
  | _ => false

/-- `register` under the lock. -/
def registerBody (o : RegistryOptions) (c : ConnectionId) (t : Topic) (n : Node) : Node :=
  match n.state.register o.maxSubscriptionsPerConnection ⟨n.nextSubscriber⟩ c t with
  | .created s =>
      { n with
        state := s
        nextSubscriber := n.nextSubscriber + 1
        cells := Function.update n.cells ⟨n.nextSubscriber⟩ Cell.new
        subscriberIds := n.subscriberIds ++ [⟨n.nextSubscriber⟩]
        lock := .free }
  | _ => { n with lock := .free }

/-- `deliver` under the lock. -/
def deliverBody (b : FrameBuilder) (o : RegistryOptions) (t : Topic) (order : ℕ)
    (payload : Octets) (policy : SubscriberId → DeliveryPolicy) (n : Node) : Node :=
  match updateFrame b t order payload with
  | .error _ => { n with lock := .free }
  | .ok update =>
      { fanOut o policy t update { n with state := n.state.setLastOrder t fun last => max last order }
        with lock := .free }

/-- `quiesce` between its sections: the next topic got its stamp. -/
def quiesceReserve (b : FrameBuilder) (order : ℕ) (n : Node) : Option Node :=
  match n.quiesce with
  | .reserving ((t, members) :: todo) ends =>
      match endFrame b t order with
      | .error cause => some { n with quiesce := .failed cause }
      | .ok f => some { n with quiesce := .reserving todo (ends ++ [⟨t, order, members, f⟩]) }
  | _ => none

/-- One step of a node. -/
def step (b : FrameBuilder) (o : RegistryOptions) (n : Node) : NodeAction → Option Node
  | .admitConnection handle identity =>
      some { n with
        nextConnection := n.nextConnection + 1
        admitting := n.admitting ++ [⟨⟨n.nextConnection⟩, handle, identity⟩]
        connectionIds := n.connectionIds ++ [⟨n.nextConnection⟩] }
  | .insertConnection i =>
      match n.unlocked, n.admitting[i]? with
      | true, some a =>
          some { n with
            state := n.state.admitConnection a.connection a.handle a.identity
            admitting := n.admitting.eraseIdx i }
      | _, _ => none
  | .registerCheck c t =>
      if n.unlocked && !n.draining then some { n with lock := .registering c t } else none
  | .registerBody =>
      match n.lock with
      | .registering c t => some (n.registerBody o c t)
      | _ => none
  | .unregister c t => if n.unlocked then some (n.unregister c t) else none
  | .dropConnection c => if n.unlocked then some (n.dropConnection c) else none
  | .deliverCheck =>
      if n.unlocked && !n.draining then some { n with lock := .delivering } else none
  | .deliverBody t order payload policy =>
      match n.lock with
      | .delivering => some (n.deliverBody b o t order payload policy)
      | _ => none
  | .disconnect c =>
      if n.unlocked && decide (c ∈ n.doomed) then
        some ({ n with doomed := n.doomed.erase c }.dropConnection c)
      else none
  | .quiesceSwap =>
      some { n with draining := true, quiesce := if n.draining then n.quiesce else .swapped }
  | .quiesceSnapshot =>
      match n.unlocked, n.quiesce with
      | true, .swapped => some { n with quiesce := .reserving n.snapshot [] }
      | _, _ => none
  | .quiesceReserve order => n.quiesceReserve b order
  | .quiesceFinish =>
      match n.unlocked, n.quiesce with
      | true, .reserving [] ends => some (n.finishAll ends)
      | _, _ => none
  | .drainPop id => some { n with cells := Function.update n.cells id (n.cells id).pop.2 }
  | .drainSettle id => some { n with cells := Function.update n.cells id (n.cells id).settle }

theorem lock_of_unlocked {n : Node} (h : n.unlocked = true) : n.lock = .free := by
  unfold unlocked at h
  split at h
  · assumption
  · cases h

/-- What a step found and did, one constructor for each way it can go. -/
inductive Fires (b : FrameBuilder) (o : RegistryOptions) (n : Node) : NodeAction → Node → Prop
  /-- A connection got its id. -/
  | admitConnection (handle : MuxHandle) (identity : Option Octets) :
      Fires b o n (.admitConnection handle identity)
        { n with
          nextConnection := n.nextConnection + 1
          admitting := n.admitting ++ [⟨⟨n.nextConnection⟩, handle, identity⟩]
          connectionIds := n.connectionIds ++ [⟨n.nextConnection⟩] }
  /-- It is in the map. -/
  | insertConnection {i : ℕ} (a : Admission) (hfree : n.lock = .free)
      (ha : n.admitting[i]? = some a) :
      Fires b o n (.insertConnection i)
        { n with
          state := n.state.admitConnection a.connection a.handle a.identity
          admitting := n.admitting.eraseIdx i }
  /-- `register` passed its check. -/
  | registerCheck (c : ConnectionId) (t : Topic) (hfree : n.lock = .free)
      (hd : n.draining = false) :
      Fires b o n (.registerCheck c t) { n with lock := .registering c t }
  /-- It ran to its end. -/
  | registerBody (c : ConnectionId) (t : Topic) (hlock : n.lock = .registering c t) :
      Fires b o n .registerBody (n.registerBody o c t)
  /-- `unregister`. -/
  | unregister (c : ConnectionId) (t : Topic) (hfree : n.lock = .free) :
      Fires b o n (.unregister c t) (n.unregister c t)
  /-- `drop_connection`. -/
  | dropConnection (c : ConnectionId) (hfree : n.lock = .free) :
      Fires b o n (.dropConnection c) (n.dropConnection c)
  /-- `deliver` passed its check. -/
  | deliverCheck (hfree : n.lock = .free) (hd : n.draining = false) :
      Fires b o n .deliverCheck { n with lock := .delivering }
  /-- It ran to the end of its section. -/
  | deliverBody (t : Topic) (order : ℕ) (payload : Octets) (policy : SubscriberId → DeliveryPolicy)
      (hlock : n.lock = .delivering) :
      Fires b o n (.deliverBody t order payload policy) (n.deliverBody b o t order payload policy)
  /-- A connection the policy voted off is dropped. -/
  | disconnect (c : ConnectionId) (hfree : n.lock = .free) (hc : c ∈ n.doomed) :
      Fires b o n (.disconnect c) ({ n with doomed := n.doomed.erase c }.dropConnection c)
  /-- The flag is set. -/
  | quiesceSwap : Fires b o n .quiesceSwap
      { n with draining := true, quiesce := if n.draining then n.quiesce else .swapped }
  /-- The snapshot is taken. -/
  | quiesceSnapshot (hfree : n.lock = .free) (hq : n.quiesce = .swapped) :
      Fires b o n .quiesceSnapshot { n with quiesce := .reserving n.snapshot [] }
  /-- A topic got its stamp and its end frame. -/
  | reserved {order : ℕ} {t : Topic} {members : List SubscriberId}
      {todo : List (Topic × List SubscriberId)} {ends : List EndSignal} (f : Frame)
      (hq : n.quiesce = .reserving ((t, members) :: todo) ends) (hf : endFrame b t order = .ok f) :
      Fires b o n (.quiesceReserve order)
        { n with quiesce := .reserving todo (ends ++ [⟨t, order, members, f⟩]) }
  /-- The end frame failed to build. -/
  | failed {order : ℕ} {t : Topic} {members : List SubscriberId}
      {todo : List (Topic × List SubscriberId)} {ends : List EndSignal} (cause : TightBeamError)
      (hq : n.quiesce = .reserving ((t, members) :: todo) ends)
      (hf : endFrame b t order = .error cause) :
      Fires b o n (.quiesceReserve order) { n with quiesce := .failed cause }
  /-- The end frames are enqueued. -/
  | quiesceFinish (ends : List EndSignal) (hfree : n.lock = .free)
      (hq : n.quiesce = .reserving [] ends) : Fires b o n .quiesceFinish (n.finishAll ends)
  /-- A drain task popped. -/
  | drainPop (id : SubscriberId) : Fires b o n (.drainPop id)
      { n with cells := Function.update n.cells id (n.cells id).pop.2 }
  /-- A drain task cleared `in_flight`. -/
  | drainSettle (id : SubscriberId) : Fires b o n (.drainSettle id)
      { n with cells := Function.update n.cells id (n.cells id).settle }

/-- Every step fires as one of them. -/
theorem fires_of_step {b : FrameBuilder} {o : RegistryOptions} {n n' : Node} {a : NodeAction}
    (hst : n.step b o a = some n') : Fires b o n a n' := by
  cases a with
  | admitConnection handle identity => cases hst; exact .admitConnection handle identity
  | insertConnection i =>
    simp only [step] at hst
    split at hst
    · next a hfree ha => cases hst; exact .insertConnection a (lock_of_unlocked hfree) ha
    · cases hst
  | registerCheck c t =>
    simp only [step] at hst
    split at hst
    · next hcan =>
      cases hst
      simp only [Bool.and_eq_true, Bool.not_eq_true'] at hcan
      exact .registerCheck c t (lock_of_unlocked hcan.1) hcan.2
    · cases hst
  | registerBody =>
    simp only [step] at hst
    split at hst
    · next c t hlock => cases hst; exact .registerBody c t hlock
    · cases hst
  | unregister c t =>
    simp only [step] at hst
    split at hst
    · next hfree => cases hst; exact .unregister c t (lock_of_unlocked hfree)
    · cases hst
  | dropConnection c =>
    simp only [step] at hst
    split at hst
    · next hfree => cases hst; exact .dropConnection c (lock_of_unlocked hfree)
    · cases hst
  | deliverCheck =>
    simp only [step] at hst
    split at hst
    · next hcan =>
      cases hst
      simp only [Bool.and_eq_true, Bool.not_eq_true'] at hcan
      exact .deliverCheck (lock_of_unlocked hcan.1) hcan.2
    · cases hst
  | deliverBody t order payload policy =>
    simp only [step] at hst
    split at hst
    · next hlock => cases hst; exact .deliverBody t order payload policy hlock
    · cases hst
  | disconnect c =>
    simp only [step] at hst
    split at hst
    · next hcan =>
      cases hst
      simp only [Bool.and_eq_true, decide_eq_true_eq] at hcan
      exact .disconnect c (lock_of_unlocked hcan.1) hcan.2
    · cases hst
  | quiesceSwap => cases hst; exact .quiesceSwap
  | quiesceSnapshot =>
    simp only [step] at hst
    split at hst
    · next hfree hq => cases hst; exact .quiesceSnapshot (lock_of_unlocked hfree) hq
    · cases hst
  | quiesceReserve order =>
    simp only [step, quiesceReserve] at hst
    split at hst
    · next t members todo ends hq =>
      split at hst
      · next cause hf => cases hst; exact .failed cause hq hf
      · next f hf => cases hst; exact .reserved f hq hf
    · cases hst
  | quiesceFinish =>
    simp only [step] at hst
    split at hst
    · next ends hfree hq => cases hst; exact .quiesceFinish ends (lock_of_unlocked hfree) hq
    · cases hst
  | drainPop id => cases hst; exact .drainPop id
  | drainSettle id => cases hst; exact .drainSettle id

/-! ### The invariant -/

/-- Handing out numbers one after the other: the next one, and those handed out. -/
def Counts (next : ℕ) (handed : List ℕ) : Prop :=
  handed = List.range' 1 handed.length ∧ next = handed.length + 1

theorem Counts.succ {next : ℕ} {handed : List ℕ} (h : Counts next handed) :
    Counts (next + 1) (handed ++ [next]) := by
  obtain ⟨hids, hnext⟩ := h
  refine ⟨?_, by simp [hnext]⟩
  rw [List.length_append, List.length_singleton, List.range'_concat, ← hids, hnext]
  simp [Nat.add_comm]

/-- Below `2 ^ 64` allocations no truncated number repeats. -/
theorem Counts.nodup_truncated {next : ℕ} {handed : List ℕ} (h : Counts next handed)
    (hlen : handed.length < 2 ^ 64) : (handed.map (· % 2 ^ 64)).Nodup := by
  obtain ⟨hids, -⟩ := h
  have hsmall : ∀ x ∈ handed, x < 2 ^ 64 := by
    intro x hx
    rw [hids, List.mem_range'_1] at hx
    omega
  have hnodup : handed.Nodup := by
    rw [hids]
    exact List.nodup_range'
  refine hnodup.map_on ?_
  intro x hx y hy hxy
  rwa [Nat.mod_eq_of_lt (hsmall x hx), Nat.mod_eq_of_lt (hsmall y hy)] at hxy

/-- What holds of a node between any two steps. -/
structure Inv (o : RegistryOptions) (n : Node) : Prop where
  /-- The maps agree. -/
  coherent : n.state.Coherent o.maxSubscriptionsPerConnection
  /-- Subscribers have numbers the counter has passed. -/
  subscribers : ∀ id sub, n.state.subscribers.lookup id = some sub → id.val < n.nextSubscriber
  /-- So do connections. -/
  connections : ∀ c, n.nextConnection ≤ c.val → n.state.connections.lookup c = none
  /-- So do the connections still to be inserted. -/
  admitted : ∀ a ∈ n.admitting, a.connection.val < n.nextConnection
  /-- Which are not in the map yet. -/
  absent : ∀ a ∈ n.admitting, n.state.connections.lookup a.connection = none
  /-- And are distinct. -/
  distinct : (n.admitting.map Admission.connection).Nodup
  /-- Connection numbers are handed out in sequence. -/
  connectionIds : Counts n.nextConnection (n.connectionIds.map ConnectionId.val)
  /-- So are subscriber numbers. -/
  subscriberIds : Counts n.nextSubscriber (n.subscriberIds.map SubscriberId.val)

theorem inv_init (o : RegistryOptions) : Inv o init where
  coherent := State.coherent_empty _
  subscribers := by intro id sub h; simp [init, State.empty] at h
  connections := by intro c _; simp [init, State.empty]
  admitted := by intro a ha; simp [init] at ha
  absent := by intro a ha; simp [init] at ha
  distinct := by simp [init]
  connectionIds := by simp [init, Counts]
  subscriberIds := by simp [init, Counts]

variable {b : FrameBuilder} {o : RegistryOptions} {n n' : Node}

/-- A step that only shrinks the maps and hands out no number keeps the
invariant. -/
theorem Inv.shrink (h : Inv o n) (hshrink : State.Shrinks n.state n'.state)
    (hcoh : n'.state.Coherent o.maxSubscriptionsPerConnection)
    (hconn : n'.nextConnection = n.nextConnection) (hsub : n'.nextSubscriber = n.nextSubscriber)
    (hadm : n'.admitting = n.admitting) (hcids : n'.connectionIds = n.connectionIds)
    (hsids : n'.subscriberIds = n.subscriberIds) : Inv o n' where
  coherent := hcoh
  subscribers := by
    rw [hsub]
    exact fun id sub hs => h.subscribers id sub (hshrink.subscribers id sub hs)
  connections := by
    rw [hconn]
    exact fun c hc => hshrink.connections c (h.connections c hc)
  admitted := by rw [hadm, hconn]; exact h.admitted
  absent := by
    rw [hadm]
    exact fun a ha => hshrink.connections _ (h.absent a ha)
  distinct := by rw [hadm]; exact h.distinct
  connectionIds := by rw [hconn, hcids]; exact h.connectionIds
  subscriberIds := by rw [hsub, hsids]; exact h.subscriberIds

theorem inv_admit (h : Inv o n) (handle : MuxHandle) (identity : Option Octets) :
    Inv o { n with
      nextConnection := n.nextConnection + 1
      admitting := n.admitting ++ [⟨⟨n.nextConnection⟩, handle, identity⟩]
      connectionIds := n.connectionIds ++ [⟨n.nextConnection⟩] } where
  coherent := h.coherent
  subscribers := h.subscribers
  connections := by
    intro c hc
    exact h.connections c (by simp only at hc; omega)
  admitted := by
    intro a ha
    simp only [List.mem_append, List.mem_singleton] at ha
    rcases ha with ha | rfl
    · exact Nat.lt_succ_of_lt (h.admitted a ha)
    · exact Nat.lt_succ_self _
  absent := by
    intro a ha
    simp only [List.mem_append, List.mem_singleton] at ha
    rcases ha with ha | rfl
    · exact h.absent a ha
    · exact h.connections _ le_rfl
  distinct := by
    simp only [List.map_append, List.map_cons, List.map_nil]
    rw [List.nodup_append]
    refine ⟨h.distinct, List.nodup_singleton _, ?_⟩
    intro c hc d hd
    rw [List.mem_map] at hc
    obtain ⟨a, ha, rfl⟩ := hc
    rw [List.mem_singleton] at hd
    rintro rfl
    have := h.admitted a ha
    rw [hd] at this
    exact lt_irrefl _ this
  connectionIds := by simpa using h.connectionIds.succ
  subscriberIds := h.subscriberIds

theorem inv_insertConnection (h : Inv o n) {i : ℕ} {a : Admission} (hi : n.admitting[i]? = some a) :
    Inv o { n with
      state := n.state.admitConnection a.connection a.handle a.identity
      admitting := n.admitting.eraseIdx i } := by
  have hmem : a ∈ n.admitting := List.mem_of_getElem? hi
  have hsub : ∀ x ∈ n.admitting.eraseIdx i, x ∈ n.admitting := fun x hx =>
    (List.eraseIdx_sublist n.admitting i).subset hx
  -- ids are distinct, so nobody still waiting has the id just inserted
  have hother : ∀ x ∈ n.admitting.eraseIdx i, x.connection ≠ a.connection := by
    intro x hx heq
    obtain ⟨j, hj, hjx⟩ := List.mem_eraseIdx_iff_getElem?.mp hx
    have hlt : j < (n.admitting.map Admission.connection).length := by
      rw [List.length_map]
      exact (List.getElem?_eq_some_iff.mp hjx).1
    refine hj ((List.getElem?_inj hlt h.distinct).mp ?_)
    rw [List.getElem?_map, List.getElem?_map, hjx, hi, Option.map_some, Option.map_some, heq]
  exact {
    coherent := h.coherent.admitConnection a.handle a.identity (h.absent a hmem)
    subscribers := h.subscribers
    connections := by
      intro c hc
      simp only [State.admitConnection, Table.lookup_insert_eq]
      rw [if_neg]
      · exact h.connections c hc
      · rintro rfl
        exact absurd (h.admitted a hmem) (not_lt.mpr hc)
    admitted := fun x hx => h.admitted x (hsub x hx)
    absent := by
      intro x hx
      simp only [State.admitConnection, Table.lookup_insert_eq]
      rw [if_neg (hother x hx)]
      exact h.absent x (hsub x hx)
    distinct := h.distinct.sublist ((List.eraseIdx_sublist _ _).map _)
    connectionIds := h.connectionIds
    subscriberIds := h.subscriberIds }

theorem inv_registerBody (h : Inv o n) (c : ConnectionId) (t : Topic) :
    Inv o (n.registerBody o c t) := by
  unfold registerBody
  split
  · next s hr =>
    have hfresh : n.state.subscribers.lookup ⟨n.nextSubscriber⟩ = none := by
      by_contra hne
      obtain ⟨sub, hsub⟩ := Option.ne_none_iff_exists'.mp hne
      exact absurd (h.subscribers _ _ hsub) (lt_irrefl _)
    obtain ⟨hins, hconn⟩ := State.lookup_of_register hr
    exact {
      coherent := h.coherent.register hfresh hr
      subscribers := by
        intro id sub hs
        simp only [hins, Table.lookup_insert_eq] at hs
        split at hs
        · next hid => rw [hid]; exact Nat.lt_succ_self _
        · exact Nat.lt_succ_of_lt (h.subscribers id sub hs)
      connections := fun c' hc' => hconn c' (h.connections c' hc')
      admitted := h.admitted
      absent := fun a ha => hconn _ (h.absent a ha)
      distinct := h.distinct
      connectionIds := h.connectionIds
      subscriberIds := by simpa using h.subscriberIds.succ }
  · exact h.shrink (State.Shrinks.refl _) h.coherent rfl rfl rfl rfl rfl

theorem inv_unregister (h : Inv o n) (c : ConnectionId) (t : Topic) : Inv o (n.unregister c t) := by
  have hshrink := State.shrinks_unregister n.state c t
  have hcoh := h.coherent.unregister c t
  unfold unregister
  split
  · next s hs => rw [hs] at hshrink hcoh; exact h.shrink hshrink hcoh rfl rfl rfl rfl rfl
  · next id s hs => rw [hs] at hshrink hcoh; exact h.shrink hshrink hcoh rfl rfl rfl rfl rfl

theorem inv_dropConnection (h : Inv o n) (c : ConnectionId) : Inv o (n.dropConnection c) :=
  h.shrink (State.shrinks_dropConnection n.state c) (h.coherent.dropConnection c) rfl rfl rfl rfl rfl

theorem Inv.setLastOrder (h : Inv o n) (t : Topic) (f : ℕ → ℕ) :
    Inv o { n with state := n.state.setLastOrder t f } :=
  h.shrink ⟨fun _ _ hs => hs, fun _ hc => hc⟩ (h.coherent.setLastOrder t f) rfl rfl rfl rfl rfl

theorem inv_deliverBody (h : Inv o n) (t : Topic) (order : ℕ) (payload : Octets)
    (policy : SubscriberId → DeliveryPolicy) :
    Inv o (n.deliverBody b o t order payload policy) := by
  unfold deliverBody
  split
  · exact h.shrink (State.Shrinks.refl _) h.coherent rfl rfl rfl rfl rfl
  · have hset := h.setLastOrder t fun last => max last order
    exact hset.shrink (State.Shrinks.refl _) hset.coherent rfl rfl rfl rfl rfl

theorem inv_finishAll (h : Inv o n) (ends : List EndSignal) : Inv o (n.finishAll ends) := by
  -- `last_order` is all the loop writes into the maps
  have hloop : ∀ (ends : List EndSignal) (s : State),
      s.Coherent o.maxSubscriptionsPerConnection →
      (ends.foldl (fun s e => s.setLastOrder e.topic fun _ => e.order) s).Coherent
          o.maxSubscriptionsPerConnection ∧
        State.Shrinks s (ends.foldl (fun s e => s.setLastOrder e.topic fun _ => e.order) s) := by
    intro ends
    induction ends with
    | nil => intro s hs; exact ⟨hs, State.Shrinks.refl s⟩
    | cons e ends ih =>
      intro s hs
      obtain ⟨hcoh, hshrink⟩ := ih _ (hs.setLastOrder e.topic fun _ => e.order)
      exact ⟨hcoh, hshrink.subscribers, hshrink.connections⟩
  obtain ⟨hcoh, hshrink⟩ := hloop ends n.state h.coherent
  exact h.shrink hshrink hcoh rfl rfl rfl rfl rfl

/-- **The step lemma.** -/
theorem inv_step {a : NodeAction} (h : Inv o n) (hst : n.step b o a = some n') : Inv o n' := by
  have hsame : State.Shrinks n.state n.state := State.Shrinks.refl n.state
  cases fires_of_step hst with
  | admitConnection handle identity => exact inv_admit h handle identity
  | insertConnection a _ ha => exact inv_insertConnection h ha
  | registerCheck c t => exact h.shrink hsame h.coherent rfl rfl rfl rfl rfl
  | registerBody c t => exact inv_registerBody h c t
  | unregister c t => exact inv_unregister h c t
  | dropConnection c => exact inv_dropConnection h c
  | deliverCheck => exact h.shrink hsame h.coherent rfl rfl rfl rfl rfl
  | deliverBody t order payload policy => exact inv_deliverBody h t order payload policy
  | disconnect c =>
    have hvoted : Inv o { n with doomed := n.doomed.erase c } :=
      h.shrink hsame h.coherent rfl rfl rfl rfl rfl
    exact inv_dropConnection hvoted c
  | quiesceSwap => exact h.shrink hsame h.coherent rfl rfl rfl rfl rfl
  | quiesceSnapshot => exact h.shrink hsame h.coherent rfl rfl rfl rfl rfl
  | reserved f => exact h.shrink hsame h.coherent rfl rfl rfl rfl rfl
  | failed cause => exact h.shrink hsame h.coherent rfl rfl rfl rfl rfl
  | quiesceFinish ends => exact inv_finishAll h ends
  | drainPop id => exact h.shrink hsame h.coherent rfl rfl rfl rfl rfl
  | drainSettle id => exact h.shrink hsame h.coherent rfl rfl rfl rfl rfl

theorem inv_of_reachable (h : Reachable (step b o) init n) : Inv o n :=
  h.invariant (inv_init o) fun _ _ _ _ hi _ hst => inv_step hi hst

/-- **The registry's representation invariant.**  In every reachable state the
three maps agree entry by entry, no topic is empty, no connection is over its
limit, and no id was handed out twice. -/
theorem registry_maps_coherent (b : FrameBuilder) (o : RegistryOptions) (n : Node)
    (hreach : Reachable (step b o) init n) (hconn : n.connectionIds.length < 2 ^ 64)
    (hsub : n.subscriberIds.length < 2 ^ 64) :
    (∀ id t c, n.state.subscribers.lookup id = some ⟨t, c⟩ ↔
      ∃ k, n.state.connections.lookup c = some k ∧ k.topics.lookup t = some id) ∧
    (∀ id t, (∃ e, n.state.topics.lookup t = some e ∧ id ∈ e.members) ↔
      ∃ c, n.state.subscribers.lookup id = some ⟨t, c⟩) ∧
    (∀ t e, n.state.topics.lookup t = some e → e.members.keys ≠ []) ∧
    (∀ c k, n.state.connections.lookup c = some k →
      k.topics.keys.length ≤ o.maxSubscriptionsPerConnection) ∧
    (n.connectionIds.map (·.val % 2 ^ 64)).Nodup ∧
    (n.subscriberIds.map (·.val % 2 ^ 64)).Nodup := by
  have hinv := inv_of_reachable hreach
  refine ⟨?_, hinv.coherent.members, hinv.coherent.nonempty, hinv.coherent.limited, ?_, ?_⟩
  · intro id t c
    exact ⟨hinv.coherent.holds, hinv.coherent.subscriber⟩
  · have := hinv.connectionIds.nodup_truncated (by simpa using hconn)
    simpa [List.map_map, Function.comp_def] using this
  · have := hinv.subscriberIds.nodup_truncated (by simpa using hsub)
    simpa [List.map_map, Function.comp_def] using this

/-- One connection, subscribed to one topic. -/
def subscribing (t : Topic) : List NodeAction :=
  [.admitConnection ⟨1⟩ none, .insertConnection 0, .registerCheck ⟨1⟩ t, .registerBody]

/-- After a first subscription the subscriber is what its connection holds. -/
theorem registry_maps_coherent_after_register :
    ∃ n, Reachable (step .total .default) init n ∧
      n.state.subscribers.lookup ⟨1⟩ = some ⟨Topic.prices, ⟨1⟩⟩ ∧
      (∃ k, n.state.connections.lookup ⟨1⟩ = some k ∧ k.topics.lookup Topic.prices = some ⟨1⟩) ∧
      (n.subscriberIds.map (·.val % 2 ^ 64)).Nodup := by
  obtain ⟨n, hrun⟩ : ∃ n, runs (step .total .default) init (subscribing Topic.prices) = some n :=
    ⟨_, rfl⟩
  have hlookup : n.state.subscribers.lookup ⟨1⟩ = some ⟨Topic.prices, ⟨1⟩⟩ := by
    cases hrun; rfl
  have hcoherent := registry_maps_coherent .total .default n (.of_runs hrun)
    (by cases hrun; decide) (by cases hrun; decide)
  exact ⟨n, .of_runs hrun, hlookup, (hcoherent.1 ⟨1⟩ Topic.prices ⟨1⟩).mp hlookup,
    hcoherent.2.2.2.2.2⟩

end Node
end Pubsub
end TightbeamExt
