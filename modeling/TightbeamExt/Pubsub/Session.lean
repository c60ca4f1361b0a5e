import TightbeamExt.Pubsub.Authorize

/-!
# A served connection

`serve` takes a number for its connection, inserts the connection under the identity the
application knows it by, answers its streams until the transport's serve loop ends, and drops
the connection before it returns.  The handler of a stream asks `PubsubCommands::answer` first
and hands the frame to the application only if the commands leave it.  A handler may still be
running, or not have started, when its connection is gone.

Connections and subscribers are numbered without end, which is what the `AtomicU64` counters
do for fewer than 2^64 ids allocated.  When streams arrive and the loop ends, the verdicts of
the policies, the answers of the backplane and what the application returns are the
environment's.  A call whose future is dropped is one that stays where it is.

A call looks at nothing of the registry but the draining flag and the entry of its own
connection, the numbers in it apart.  So it takes the same steps on any two registries that
agree on these.

## Main definitions

* `Handler.step` — one section of a stream's handler.
* `ServedConnection.step` — one step of a call of `serve`.
* `TopicRegistry.entry` — what a connection is to the registry, and `enrolled`, what
  `register` does to it.
* `ServedConnection.Alone` — a registry that has only this call.

## Main results

* `register_entry` — `register` is a function of what its connection is.
* `moves_of_step` — **what a step of a call leaves as it is**.
* `step_alone` — **a step of a call is a step of the same call alone**.
-/

namespace TightbeamExt
namespace Pubsub

/-! ### One stream -/

/-- What the application's handler works with. -/
structure ConnectionContext where
  /-- The number the connection's subscriptions hang off. -/
  connection : ConnectionId
  /-- The connection's emit handle. -/
  handle : MuxHandle
  deriving DecidableEq

/-- How far the handler of a stream is. -/
inductive Handler (ρ : Type)
  /-- Its future is made and was not polled. -/
  | made
  /-- The commands took the frame. -/
  | command (call : Call)
  /-- The application got the frame. -/
  | app (context : ConnectionContext)
  /-- The application returned. -/
  | replied (package : ρ)

/-- Who lets a handler go on. -/
inductive HandlerAction (ρ : Type)
  /-- The executor polls it for the first time. -/
  | poll
  /-- A policy answers. -/
  | judge (verdict : AccessVerdict)
  /-- The state lock is free for `register`. -/
  | register
  /-- The backplane answers. -/
  | publish (answer : Except BackplaneError Unit)
  /-- The application returns. -/
  | reply (package : ρ)

/-- The registry, for the sections of a command that look at nothing else. -/
def TopicRegistry.server (r : TopicRegistry) : Server := { Server.start with registry := r }

/-- One section of the handler that `serve` gives the responder. -/
def Handler.step {ρ : Type} (publishes : Bool) (limit : ℕ) (context : ConnectionContext)
    (frame : CommandFrame) (r : TopicRegistry) :
    Handler ρ → HandlerAction ρ → Option (Handler ρ × TopicRegistry)
  | .made, .poll =>
      match r.server.accept publishes context.connection frame with
      | some (call, r') => some (.command call, r')
      | none => some (.app context, r)
  | .command (.asking g c _ topic body), .judge verdict =>
      some (.command (Server.judged g c topic body verdict), r)
  | .command (.registering _ topic), .register =>
      match r.register limit context.connection topic with
      | (.ok _, r') => some (.command (.answered .sub .ok), r')
      | (.error e, r') => some (.command (.answered .sub (PubsubCommands.refusal e)), r')
  | .command (.publishing _ _ _), .publish answer =>
      some (.command (.answered .pub (PubsubCommands.publishAnswer (r.publish answer))), r)
  | .app _, .reply package => some (.replied package, r)
  | _, _ => none

/-! ### One call of `serve` -/

/-- How far a call of `serve` is. -/
inductive ServePhase
  /-- Before its connection has a number. -/
  | called
  /-- The number is taken, the connection not inserted. -/
  | numbered (c : ConnectionId)
  /-- The serve loop runs. -/
  | serving (c : ConnectionId)
  /-- The serve loop ended. -/
  | leaving (c : ConnectionId)
  /-- The connection is dropped and the call has returned. -/
  | left (c : ConnectionId)
  deriving DecidableEq

/-- The number of the call's connection. -/
def ServePhase.connection : ServePhase → Option ConnectionId
  | .called => none
  | .numbered c | .serving c | .leaving c | .left c => some c

/-- The connection that is inserted and not dropped by the call. -/
def ServePhase.served : ServePhase → Option ConnectionId
  | .called | .numbered _ | .left _ => none
  | .serving c | .leaving c => some c

/-- A stream of a served connection. -/
structure ServedStream (ρ : Type) where
  /-- The frame the peer opened it with. -/
  frame : CommandFrame
  /-- Its handler. -/
  handler : Handler ρ

/-- A call of `serve`. -/
structure ServedConnection (ρ : Type) where
  /-- The emit handle. -/
  handle : MuxHandle
  /-- The identity of the peer, if the application passed one. -/
  identity : Option Octets
  /-- How far it is. -/
  phase : ServePhase
  /-- The streams so far. -/
  streams : List (ServedStream ρ)

/-- The steps of a call. -/
inductive ServedAction (ρ : Type)
  /-- `admit_connection` takes a number. -/
  | number
  /-- It inserts the connection. -/
  | enter
  /-- The peer opens a stream. -/
  | receive (frame : CommandFrame)
  /-- A handler goes on. -/
  | handler (k : ℕ) (a : HandlerAction ρ)
  /-- The serve loop ends. -/
  | finish
  /-- `drop_connection`, and the call returns. -/
  | leave

/-- `drop_connection`. -/
def TopicRegistry.dropConnection (c : ConnectionId) (r : TopicRegistry) : TopicRegistry :=
  { r with state := (r.state.dropConnection c).2 }

/-- `admit_connection` under the lock. -/
def TopicRegistry.admitConnection (c : ConnectionId) (handle : MuxHandle) (identity : Option Octets)
    (r : TopicRegistry) : TopicRegistry :=
  { r with state := r.state.admitConnection c handle identity }

/-- The `last_order` bookkeeping of `deliver` and `quiesce`. -/
def TopicRegistry.setLastOrder (topic : Topic) (f : ℕ → ℕ) (r : TopicRegistry) : TopicRegistry :=
  { r with state := r.state.setLastOrder topic f }

/-- One step of a call; `next` is the number the counter hands out next. -/
def ServedConnection.step {ρ : Type} (publishes : Bool) (limit : ℕ) (r : TopicRegistry) (next : ℕ)
    (x : ServedConnection ρ) : ServedAction ρ → Option (ServedConnection ρ × TopicRegistry × ℕ)
  | .number =>
      match x.phase with
      | .called => some ({ x with phase := .numbered ⟨next⟩ }, r, next + 1)
      | _ => none
  | .enter =>
      match x.phase with
      | .numbered c =>
          some ({ x with phase := .serving c }, r.admitConnection c x.handle x.identity, next)
      | _ => none
  | .receive frame =>
      match x.phase with
      | .serving _ => some ({ x with streams := x.streams ++ [⟨frame, .made⟩] }, r, next)
      | _ => none
  | .handler k a =>
      match x.phase.connection, x.streams[k]? with
      | some c, some stream =>
          (stream.handler.step publishes limit ⟨c, x.handle⟩ stream.frame r a).map fun p =>
            ({ x with streams := x.streams.set k ⟨stream.frame, p.1⟩ }, p.2, next)
      | _, _ => none
  | .finish =>
      match x.phase with
      | .serving c => some ({ x with phase := .leaving c }, r, next)
      | _ => none
  | .leave =>
      match x.phase with
      | .leaving c => some ({ x with phase := .left c }, r.dropConnection c, next)
      | _ => none

/-! ### What a connection is to the registry -/

/-- The entry of a connection, without the numbers of its subscribers. -/
structure ConnectionEntry where
  /-- The emit handle. -/
  handle : MuxHandle
  /-- The attached identity. -/
  identity : Option Octets
  /-- The topics it holds. -/
  topics : List Topic
  deriving DecidableEq

namespace TopicRegistry

/-- What the connection is to the registry. -/
def entry (r : TopicRegistry) (c : ConnectionId) : Option ConnectionEntry :=
  (r.state.connections.lookup c).map fun k => ⟨k.handle, k.identity, k.topics.keys⟩

variable {r : TopicRegistry} {c c' : ConnectionId} {topic : Topic} {limit : ℕ}

theorem memberIdentity_entry (r : TopicRegistry) (c : ConnectionId) :
    r.memberIdentity c = (r.entry c).map ConnectionEntry.identity := by
  rw [memberIdentity, entry, Option.map_map]
  rfl

/-- `register` as the connection sees it. -/
def enrolled (limit : ℕ) (draining : Bool) (topic : Topic) :
    Option ConnectionEntry → Except RegisterError Unit × Option ConnectionEntry
  | none => (.error (if draining then .draining else .unknownConnection), none)
  | some e =>
      if draining then (.error .draining, some e)
      else if topic ∈ e.topics then (.ok (), some e)
      else if limit ≤ e.topics.length then (.error .limitReached, some e)
      else (.ok (), some { e with topics := topic :: e.topics.erase topic })

/-- **`register` is a function of what its connection is.** -/
theorem register_entry (limit : ℕ) (r : TopicRegistry) (c : ConnectionId) (topic : Topic) :
    ((r.register limit c topic).1.map fun _ => (), (r.register limit c topic).2.entry c) =
      enrolled limit r.draining topic (r.entry c) := by
  unfold register
  cases hd : r.draining with
  | true =>
    cases he : r.entry c with
    | none => simp [enrolled, he, Except.map]
    | some e => simp [enrolled, he, Except.map]
  | false =>
    cases hc : r.state.connections.lookup c with
    | none =>
      have he : r.entry c = none := by rw [entry, hc]; rfl
      simp [State.register, hc, enrolled, he, Except.map]
    | some k =>
      have he : r.entry c = some ⟨k.handle, k.identity, k.topics.keys⟩ := by rw [entry, hc]; rfl
      cases ht : k.topics.lookup topic with
      | some id => simp [State.register, hc, ht, enrolled, he, Except.map, Table.mem_of_lookup ht]
      | none =>
        have hnot : topic ∉ k.topics.keys := by
          intro hmem
          obtain ⟨id, hid⟩ := Table.exists_lookup_of_mem hmem
          rw [ht] at hid
          cases hid
        by_cases hlimit : limit ≤ k.topics.keys.length
        · simp [State.register, hc, ht, hlimit, enrolled, he, hnot, Except.map]
        · simp [State.register, hc, ht, hlimit, enrolled, hnot, Except.map, entry]

/-- A state in which the entries of connections are these. -/
theorem entry_congr {r r' : TopicRegistry}
    (h : r'.state.connections.lookup c = r.state.connections.lookup c) : r'.entry c = r.entry c := by
  rw [entry, entry, h]

theorem register_draining (limit : ℕ) (r : TopicRegistry) (c : ConnectionId) (topic : Topic) :
    (r.register limit c topic).2.draining = r.draining := by
  unfold register
  split
  · rfl
  · split <;> rfl

/-- `register` changes no other connection. -/
theorem register_others (h : c' ≠ c) : (r.register limit c topic).2.entry c' = r.entry c' := by
  unfold register
  split
  · rfl
  · split
    · rfl
    · rfl
    · next s' hr =>
      obtain ⟨connected, -, -, -, rfl⟩ := State.created_of_register hr
      refine entry_congr ?_
      rw [Table.lookup_insert_eq, if_neg h]

/-- `unregister` as the connection sees it. -/
theorem unregister_entry (c : ConnectionId) (topic : Topic) (r : TopicRegistry) :
    (r.unregister c topic).2.entry c =
      (r.entry c).map fun e => { e with topics := e.topics.erase topic } := by
  unfold unregister State.unregister
  cases hc : r.state.connections.lookup c with
  | none => simp [entry, hc]
  | some connected =>
    cases ht : connected.topics.lookup topic with
    | none =>
      have hnot : topic ∉ connected.topics.keys := by
        intro hmem
        obtain ⟨id, hid⟩ := Table.exists_lookup_of_mem hmem
        rw [ht] at hid
        cases hid
      simp [entry, hc, ht, List.erase_of_not_mem hnot]
    | some removed => simp [entry, hc, ht, State.connections_removeSubscriber]

/-- `unregister` changes no other connection. -/
theorem unregister_others (h : c' ≠ c) : (r.unregister c topic).2.entry c' = r.entry c' := by
  unfold unregister State.unregister
  cases hc : r.state.connections.lookup c with
  | none => rfl
  | some connected =>
    cases ht : connected.topics.lookup topic with
    | none => simp [entry, ht]
    | some removed =>
      refine entry_congr ?_
      simp only [ht, State.connections_removeSubscriber]
      rw [Table.lookup_insert_eq, if_neg h]

theorem dropConnection_entry (c c' : ConnectionId) (r : TopicRegistry) :
    (r.dropConnection c).entry c' = if c' = c then none else r.entry c' := by
  rw [entry, dropConnection, Server.lookup_dropConnection]
  split
  · rfl
  · rfl

theorem admitConnection_entry (c c' : ConnectionId) (handle : MuxHandle) (identity : Option Octets)
    (r : TopicRegistry) :
    (r.admitConnection c handle identity).entry c' =
      if c' = c then some ⟨handle, identity, []⟩ else r.entry c' := by
  rw [entry, admitConnection, State.admitConnection, Table.lookup_insert_eq]
  split
  · rfl
  · rfl

/-! ### What the registry keeps -/

/-- The maps agree, and no subscriber has a number yet to come. -/
structure Sound (limit : ℕ) (r : TopicRegistry) : Prop where
  /-- The maps. -/
  coherent : r.state.Coherent limit
  /-- The numbers. -/
  fresh : ∀ id sub, r.state.subscribers.lookup id = some sub → id.val < r.nextSubscriber

/-- What a section of a handler does: it keeps the registry sound and the draining flag as it is,
touches no other connection, and neither inserts its own nor removes it. -/
structure Touches (limit : ℕ) (c : ConnectionId) (r r' : TopicRegistry) : Prop where
  /-- The flag. -/
  draining : r'.draining = r.draining
  /-- Other connections. -/
  others : ∀ c', c' ≠ c → r'.entry c' = r.entry c'
  /-- Its own. -/
  own : ((r'.entry c).map fun e => (e.handle, e.identity)) =
    (r.entry c).map fun e => (e.handle, e.identity)
  /-- The maps. -/
  sound : r.Sound limit → r'.Sound limit

theorem Touches.refl (limit : ℕ) (c : ConnectionId) (r : TopicRegistry) : Touches limit c r r :=
  ⟨rfl, fun _ _ => rfl, rfl, id⟩

theorem enrolled_own (limit : ℕ) (draining : Bool) (topic : Topic) (e : Option ConnectionEntry) :
    ((enrolled limit draining topic e).2.map fun e => (e.handle, e.identity)) =
      e.map fun e => (e.handle, e.identity) := by
  cases e with
  | none => rfl
  | some e =>
    simp only [enrolled]
    split
    · rfl
    · split
      · rfl
      · split <;> rfl

theorem Sound.register (h : r.Sound limit) (c : ConnectionId) (topic : Topic) :
    (r.register limit c topic).2.Sound limit := by
  unfold TopicRegistry.register
  split
  · exact h
  · split
    · exact h
    · exact h
    · next s' hr =>
      have hfree : r.state.subscribers.lookup ⟨r.nextSubscriber⟩ = none := by
        by_contra hne
        obtain ⟨sub, hsub⟩ := Option.ne_none_iff_exists'.mp hne
        exact absurd (h.fresh _ _ hsub) (Nat.lt_irrefl _)
      refine ⟨h.coherent.register hfree hr, ?_⟩
      intro id sub hid
      rw [(State.lookup_of_register hr).1, Table.lookup_insert_eq] at hid
      split at hid
      · next hnew => rw [hnew]; exact Nat.lt_succ_self _
      · exact Nat.lt_succ_of_lt (h.fresh id sub hid)

theorem Sound.shrinks (h : r.Sound limit) {r' : TopicRegistry} (hc : r'.state.Coherent limit)
    (hs : State.Shrinks r.state r'.state) (hn : r'.nextSubscriber = r.nextSubscriber) :
    r'.Sound limit where
  coherent := hc
  fresh := by
    intro id sub hid
    rw [hn]
    exact h.fresh id sub (hs.subscribers id sub hid)

theorem Sound.dropConnection (h : r.Sound limit) (c : ConnectionId) :
    (r.dropConnection c).Sound limit :=
  h.shrinks (h.coherent.dropConnection c) (State.shrinks_dropConnection _ c) rfl

theorem Sound.admitConnection (h : r.Sound limit) (handle : MuxHandle) (identity : Option Octets)
    (hc : r.entry c = none) : (r.admitConnection c handle identity).Sound limit where
  coherent := h.coherent.admitConnection handle identity (Option.map_eq_none_iff.mp hc)
  fresh := h.fresh

theorem touches_register (limit : ℕ) (c : ConnectionId) (topic : Topic) (r : TopicRegistry) :
    Touches limit c r (r.register limit c topic).2 where
  draining := register_draining limit r c topic
  others := fun _ => register_others
  own := by
    have hentry := congrArg Prod.snd (register_entry limit r c topic)
    rw [show (r.register limit c topic).2.entry c = _ from hentry]
    exact enrolled_own limit r.draining topic (r.entry c)
  sound := fun h => h.register c topic

theorem touches_unregister (limit : ℕ) (c : ConnectionId) (topic : Topic) (r : TopicRegistry) :
    Touches limit c r (r.unregister c topic).2 where
  draining := rfl
  others := fun _ => unregister_others
  own := by
    rw [unregister_entry, Option.map_map]
    rfl
  sound := fun h =>
    h.shrinks (h.coherent.unregister c topic) (State.shrinks_unregister _ c topic) rfl

/-- A registry whose maps agree and that has no connection is empty. -/
theorem Sound.empty (h : r.Sound limit) (hnone : ∀ c, r.entry c = none) : r.state = State.empty := by
  have hconnections : ∀ c, r.state.connections.lookup c = none := fun c =>
    Option.map_eq_none_iff.mp (hnone c)
  have hsubscribers : ∀ id, r.state.subscribers.lookup id = none := by
    intro id
    by_contra hne
    obtain ⟨sub, hsub⟩ := Option.ne_none_iff_exists'.mp hne
    obtain ⟨k, hk, -⟩ := h.coherent.holds hsub
    rw [hconnections] at hk
    cases hk
  have htopics : ∀ t, r.state.topics.lookup t = none := by
    intro t
    by_contra hne
    obtain ⟨e, he⟩ := Option.ne_none_iff_exists'.mp hne
    obtain ⟨id, hid⟩ := List.exists_mem_of_ne_nil _ (h.coherent.nonempty t e he)
    obtain ⟨c, hc⟩ := (h.coherent.members id t).mp ⟨e, he, AList.mem_keys.mpr hid⟩
    rw [hsubscribers] at hc
    cases hc
  rw [State.empty, ← Table.eq_empty_of_lookup htopics, ← Table.eq_empty_of_lookup hconnections,
    ← Table.eq_empty_of_lookup hsubscribers]

theorem touches_unsubscribe (limit : ℕ) (c : ConnectionId) (name : Octets) (r : TopicRegistry) :
    Touches limit c r (PubsubCommands.unsubscribe c name r).2 := by
  unfold PubsubCommands.unsubscribe
  split
  · exact Touches.refl limit c r
  · exact touches_unregister limit c _ r

theorem touches_accept {publishes : Bool} {frame : CommandFrame} {call : Call} {r' : TopicRegistry}
    (limit : ℕ) (h : r.server.accept publishes c frame = some (call, r')) : Touches limit c r r' := by
  rcases Server.accept_cases h with ⟨g, name, -, hr⟩ | ⟨name, status, -, hr⟩
  · rw [hr]
    exact Touches.refl limit c r
  · rw [hr]
    exact touches_unsubscribe limit c name r

/-! ### Two registries that agree on a connection -/

/-- The connection is to one registry what another is to another. -/
structure Alike (r : TopicRegistry) (c : ConnectionId) (r₀ : TopicRegistry) (c₀ : ConnectionId) :
    Prop where
  /-- Both drain or neither. -/
  draining : r₀.draining = r.draining
  /-- The entries. -/
  entry : r₀.entry c₀ = r.entry c

variable {r₀ r₀' r' : TopicRegistry} {c₀ : ConnectionId}

theorem Alike.register (h : Alike r c r₀ c₀) (limit : ℕ) (topic : Topic) :
    ((r₀.register limit c₀ topic).1.map fun _ => ()) = ((r.register limit c topic).1.map fun _ => ()) ∧
      Alike (r.register limit c topic).2 c (r₀.register limit c₀ topic).2 c₀ := by
  have hboth := register_entry limit r₀ c₀ topic
  rw [h.draining, h.entry, ← register_entry limit r c topic] at hboth
  refine ⟨congrArg Prod.fst hboth, ?_, congrArg Prod.snd hboth⟩
  rw [register_draining, register_draining, h.draining]

theorem Alike.unsubscribe (h : Alike r c r₀ c₀) (name : Octets) :
    (PubsubCommands.unsubscribe c₀ name r₀).1 = (PubsubCommands.unsubscribe c name r).1 ∧
      Alike (PubsubCommands.unsubscribe c name r).2 c (PubsubCommands.unsubscribe c₀ name r₀).2 c₀ := by
  unfold PubsubCommands.unsubscribe
  cases Topic.tryFrom name with
  | error e => exact ⟨rfl, h⟩
  | ok topic =>
    refine ⟨rfl, h.draining, ?_⟩
    rw [unregister_entry, unregister_entry, h.entry]

end TopicRegistry

/-! ### Another number for the same connection -/

/-- The call, made on another connection. -/
def Call.renumber (c : ConnectionId) : Call → Call
  | .asking g _ identity topic body => .asking g c identity topic body
  | .registering _ topic => .registering c topic
  | .publishing _ topic payload => .publishing c topic payload
  | .answered k status => .answered k status

/-- The handler, of a stream on another connection. -/
def Handler.renumber {ρ : Type} (c : ConnectionId) : Handler ρ → Handler ρ
  | .made => .made
  | .command call => .command (call.renumber c)
  | .app context => .app { context with connection := c }
  | .replied package => .replied package

/-- The phase, of a call whose connection has another number. -/
def ServePhase.renumber (c : ConnectionId) : ServePhase → ServePhase
  | .called => .called
  | .numbered _ => .numbered c
  | .serving _ => .serving c
  | .leaving _ => .leaving c
  | .left _ => .left c

/-- The stream, on another connection. -/
def ServedStream.renumber {ρ : Type} (c : ConnectionId) (stream : ServedStream ρ) :
    ServedStream ρ :=
  { stream with handler := stream.handler.renumber c }

/-- The call of `serve`, with another number for its connection. -/
def ServedConnection.renumber {ρ : Type} (c : ConnectionId) (x : ServedConnection ρ) :
    ServedConnection ρ :=
  { x with phase := x.phase.renumber c, streams := x.streams.map (ServedStream.renumber c) }

theorem judged_renumber (g : Guarded) (c c₀ : ConnectionId) (topic : Topic) (body : Option Octets)
    (verdict : AccessVerdict) :
    (Server.judged g c topic body verdict).renumber c₀ = Server.judged g c₀ topic body verdict := by
  cases verdict with
  | forbid => rfl
  | allow =>
    cases g with
    | sub => rfl
    | pub => cases body <;> rfl

section Sections

open TopicRegistry

variable {ρ : Type} {publishes : Bool} {limit : ℕ} {r r' r₀ : TopicRegistry} {c c₀ : ConnectionId}

theorem ask_renumber (h : Alike r c r₀ c₀) (g : Guarded) (name : Octets) (body : Option Octets) :
    r₀.server.ask g c₀ name body = (r.server.ask g c name body).renumber c₀ := by
  have hid : r₀.memberIdentity c₀ = r.memberIdentity c := by
    rw [memberIdentity_entry, memberIdentity_entry, h.entry]
  unfold Server.ask
  cases Topic.tryFrom name with
  | error e => rfl
  | ok topic =>
    simp only [TopicRegistry.server, hid]
    cases r.memberIdentity c <;> rfl

/-- `answer` up to the policy, on two registries that agree. -/
theorem accept_renumber (h : Alike r c r₀ c₀) {frame : CommandFrame} {call : Call}
    (ha : r.server.accept publishes c frame = some (call, r')) :
    ∃ r₀', r₀.server.accept publishes c₀ frame = some (call.renumber c₀, r₀') ∧
      Alike r' c r₀' c₀ := by
  unfold Server.accept at ha ⊢
  cases hsub : PubsubCommands.stripFront (utf8 subPrefix) frame.id with
  | some name =>
    simp only [hsub, Option.some.injEq, Prod.mk.injEq] at ha ⊢
    obtain ⟨rfl, rfl⟩ := ha
    exact ⟨_, ⟨ask_renumber h .sub name frame.body, rfl⟩, h⟩
  | none =>
    cases hunsub : PubsubCommands.stripFront (utf8 unsubPrefix) frame.id with
    | some name =>
      simp only [hsub, hunsub, Option.some.injEq, Prod.mk.injEq] at ha ⊢
      obtain ⟨rfl, rfl⟩ := ha
      obtain ⟨hstatus, halike⟩ := h.unsubscribe name
      exact ⟨_, ⟨congrArg (Call.answered .unsub) hstatus, rfl⟩, halike⟩
    | none =>
      cases hpub : PubsubCommands.stripFront (utf8 pubPrefix) frame.id with
      | none => simp [hsub, hunsub, hpub] at ha
      | some name =>
        cases publishes with
        | false => simp [hsub, hunsub, hpub] at ha
        | true =>
          simp only [hsub, hunsub, hpub, if_true, Option.some.injEq, Prod.mk.injEq] at ha ⊢
          obtain ⟨rfl, rfl⟩ := ha
          exact ⟨_, ⟨ask_renumber h .pub name frame.body, rfl⟩, h⟩

/-- The frame is one of the commands'. -/
def PubsubCommands.claims (publishes : Bool) (id : Octets) : Bool :=
  (stripFront (utf8 subPrefix) id).isSome || (stripFront (utf8 unsubPrefix) id).isSome ||
    publishes && (stripFront (utf8 pubPrefix) id).isSome

/-- The commands take the frames they claim. -/
theorem accept_isSome (s : Server) (publishes : Bool) (c : ConnectionId) (frame : CommandFrame) :
    (s.accept publishes c frame).isSome = PubsubCommands.claims publishes frame.id := by
  unfold Server.accept PubsubCommands.claims
  cases PubsubCommands.stripFront (utf8 subPrefix) frame.id with
  | some name => simp
  | none =>
    cases PubsubCommands.stripFront (utf8 unsubPrefix) frame.id with
    | some name => simp
    | none =>
      cases PubsubCommands.stripFront (utf8 pubPrefix) frame.id with
      | none => simp
      | some name => cases publishes <;> simp

namespace Handler

variable {context : ConnectionContext} {frame : CommandFrame} {f f' : Handler ρ}
  {a : HandlerAction ρ}

/-- What a section leaves of the registry. -/
theorem touches (h : f.step publishes limit context frame r a = some (f', r')) :
    Touches limit context.connection r r' := by
  unfold Handler.step at h
  split at h
  · split at h
    · next call r'' haccept =>
      cases h
      exact touches_accept limit haccept
    · cases h
      exact Touches.refl limit _ r
  · cases h
    exact Touches.refl limit _ r
  · next c topic =>
    have htouches := touches_register limit context.connection topic r
    split at h
    · next hr =>
      cases h
      rw [hr] at htouches
      exact htouches
    · next hr =>
      cases h
      rw [hr] at htouches
      exact htouches
  · cases h
    exact Touches.refl limit _ r
  · cases h
    exact Touches.refl limit _ r
  · cases h

/-- **A section looks at nothing but its own connection.** -/
theorem step_alike {handle : MuxHandle} (h : Alike r c r₀ c₀)
    (hst : f.step publishes limit ⟨c, handle⟩ frame r a = some (f', r')) :
    ∃ r₀', (f.renumber c₀).step publishes limit ⟨c₀, handle⟩ frame r₀ a =
      some (f'.renumber c₀, r₀') ∧ Alike r' c r₀' c₀ := by
  unfold Handler.step at hst
  split at hst
  · -- the first poll
    split at hst
    · next call r'' haccept =>
      cases hst
      obtain ⟨r₀', hr₀, halike⟩ := accept_renumber h haccept
      refine ⟨r₀', ?_, halike⟩
      simp only [renumber, Handler.step, hr₀]
    · next hnone =>
      cases hst
      have hleft : r₀.server.accept publishes c₀ frame = none := by
        rw [← Option.isNone_iff_eq_none, ← Option.not_isSome, accept_isSome,
          ← accept_isSome r.server publishes c frame]
        simp only [hnone, Option.isSome_none, Bool.not_false]
      refine ⟨r₀, ?_, h⟩
      simp only [renumber, Handler.step, hleft]
  · -- the policy
    next g c' identity topic body verdict =>
    cases hst
    refine ⟨r₀, ?_, h⟩
    show some (command (Server.judged g c₀ topic body verdict), r₀) =
      some (command ((Server.judged g c' topic body verdict).renumber c₀), r₀)
    rw [judged_renumber]
  · -- `register`
    next c' topic =>
    obtain ⟨hresult, halike⟩ := h.register limit topic
    simp only [renumber, Call.renumber, Handler.step]
    cases hr : r.register limit c topic with
    | mk result r'' =>
      cases hr₀ : r₀.register limit c₀ topic with
      | mk result₀ r₀'' =>
        rw [hr, hr₀] at hresult halike
        simp only [hr] at hst
        cases result with
        | ok id =>
          cases hst
          cases result₀ with
          | ok id₀ => exact ⟨r₀'', rfl, halike⟩
          | error e₀ => cases hresult
        | error e =>
          cases hst
          cases result₀ with
          | ok id₀ => cases hresult
          | error e₀ =>
            cases hresult
            exact ⟨r₀'', rfl, halike⟩
  · -- the backplane
    next c' topic payload answer =>
    cases hst
    have hpublish : r₀.publish answer = r.publish answer := by
      simp only [TopicRegistry.publish, h.draining]
    refine ⟨r₀, ?_, h⟩
    simp only [renumber, Call.renumber, Handler.step, hpublish]
  · cases hst
    exact ⟨r₀, rfl, h⟩
  · cases hst

end Handler
end Sections

/-! ### The steps of a call -/

/-- Who a stream of the call went to, and with what. -/
def ServedStream.Routed {ρ : Type} (publishes : Bool) (connection : Option ConnectionId)
    (handle : MuxHandle) (stream : ServedStream ρ) : Prop :=
  match stream.handler with
  | .made => True
  | .command _ => PubsubCommands.claims publishes stream.frame.id = true
  | .app context =>
      PubsubCommands.claims publishes stream.frame.id = false ∧
        connection = some context.connection ∧ context.handle = handle
  | .replied _ => PubsubCommands.claims publishes stream.frame.id = false

namespace ServedConnection

open TopicRegistry

variable {ρ : Type} {publishes : Bool} {limit next next' next₀ : ℕ} {r r' r₀ : TopicRegistry}
  {x x' : ServedConnection ρ} {a : ServedAction ρ}

/-- The handler of a routed stream routes it. -/
theorem routed_handler {c : ConnectionId} {handle : MuxHandle} {stream : ServedStream ρ}
    {f' : Handler ρ} {b : HandlerAction ρ} (h : stream.Routed publishes (some c) handle)
    (hst : stream.handler.step publishes limit ⟨c, handle⟩ stream.frame r b = some (f', r')) :
    ServedStream.Routed publishes (some c) handle ⟨stream.frame, f'⟩ := by
  unfold ServedStream.Routed at h
  unfold Handler.step at hst
  split at hst
  · have hclaims := accept_isSome r.server publishes c stream.frame
    split at hst
    · next haccept =>
      cases hst
      rw [haccept] at hclaims
      exact hclaims.symm
    · next haccept =>
      cases hst
      rw [haccept] at hclaims
      exact ⟨hclaims.symm, rfl, rfl⟩
  · next heq =>
    cases hst
    rw [heq] at h
    exact h
  · next heq =>
    rw [heq] at h
    split at hst
    · cases hst
      exact h
    · cases hst
      exact h
  · next heq =>
    cases hst
    rw [heq] at h
    exact h
  · next heq =>
    cases hst
    rw [heq] at h
    exact h.1
  · cases hst

/-- The steps of a call, by what they find. -/
inductive Takes (publishes : Bool) (limit : ℕ) (r : TopicRegistry) (next : ℕ)
    (x : ServedConnection ρ) :
    ServedAction ρ → ServedConnection ρ → TopicRegistry → ℕ → Prop
  /-- The number is taken. -/
  | number (hp : x.phase = .called) :
      Takes publishes limit r next x .number { x with phase := .numbered ⟨next⟩ } r (next + 1)
  /-- The connection is inserted. -/
  | enter {c : ConnectionId} (hp : x.phase = .numbered c) :
      Takes publishes limit r next x .enter { x with phase := .serving c }
        (r.admitConnection c x.handle x.identity) next
  /-- A stream arrives. -/
  | receive {c : ConnectionId} {frame : CommandFrame} (hp : x.phase = .serving c) :
      Takes publishes limit r next x (.receive frame)
        { x with streams := x.streams ++ [⟨frame, .made⟩] } r next
  /-- A handler goes on. -/
  | handler {k : ℕ} {c : ConnectionId} {stream : ServedStream ρ} {b : HandlerAction ρ}
      {f' : Handler ρ} {r' : TopicRegistry} (hc : x.phase.connection = some c)
      (hk : x.streams[k]? = some stream)
      (hf : stream.handler.step publishes limit ⟨c, x.handle⟩ stream.frame r b = some (f', r')) :
      Takes publishes limit r next x (.handler k b)
        { x with streams := x.streams.set k ⟨stream.frame, f'⟩ } r' next
  /-- The serve loop ends. -/
  | finish {c : ConnectionId} (hp : x.phase = .serving c) :
      Takes publishes limit r next x .finish { x with phase := .leaving c } r next
  /-- The connection is dropped. -/
  | leave {c : ConnectionId} (hp : x.phase = .leaving c) :
      Takes publishes limit r next x .leave { x with phase := .left c } (r.dropConnection c) next

theorem takes_of_step (h : x.step publishes limit r next a = some (x', r', next')) :
    Takes publishes limit r next x a x' r' next' := by
  cases a with
  | number =>
    simp only [ServedConnection.step] at h
    split at h
    · next hp => cases h; exact .number hp
    · cases h
  | enter =>
    simp only [ServedConnection.step] at h
    split at h
    · next hp => cases h; exact .enter hp
    · cases h
  | receive frame =>
    simp only [ServedConnection.step] at h
    split at h
    · next hp => cases h; exact .receive hp
    · cases h
  | handler k b =>
    simp only [ServedConnection.step] at h
    split at h
    · next hc hk =>
      obtain ⟨p, hf, hp⟩ := Option.map_eq_some_iff.mp h
      cases hp
      exact .handler hc hk hf
    · cases h
  | finish =>
    simp only [ServedConnection.step] at h
    split at h
    · next hp => cases h; exact .finish hp
    · cases h
  | leave =>
    simp only [ServedConnection.step] at h
    split at h
    · next hp => cases h; exact .leave hp
    · cases h

/-- What a step of a call is. -/
structure Moves (publishes : Bool) (limit : ℕ) (r : TopicRegistry) (next : ℕ)
    (x x' : ServedConnection ρ) (r' : TopicRegistry) (next' : ℕ) : Prop where
  /-- The call keeps what it was made with. -/
  made : x'.handle = x.handle ∧ x'.identity = x.identity
  /-- The number is taken once. -/
  number : (x.phase = .called ∧ x'.phase = .numbered ⟨next⟩ ∧ next' = next + 1) ∨
    (x'.phase.connection = x.phase.connection ∧ next' = next)
  /-- A call that returned does not go on. -/
  left : ∀ c, x.phase = .left c → x'.phase = .left c
  /-- The draining flag stays. -/
  draining : r'.draining = r.draining
  /-- Other connections stay. -/
  others : ∀ c, x.phase.connection ≠ some c → r'.entry c = r.entry c
  /-- Its own connection is the one the call inserted, or as it was. -/
  own : ∀ c e', x.phase.connection = some c → r'.entry c = some e' →
    (x'.phase.served = some c ∧ e'.handle = x.handle ∧ e'.identity = x.identity) ∨
      (x'.phase.served = x.phase.served ∧
        ∃ e, r.entry c = some e ∧ e.handle = e'.handle ∧ e.identity = e'.identity)
  /-- The maps agree. -/
  sound : r.Sound limit → (∀ c, x.phase = .numbered c → r.entry c = none) → r'.Sound limit
  /-- Streams go where they belong. -/
  routed : (∀ stream ∈ x.streams, stream.Routed publishes x.phase.connection x.handle) →
    ∀ stream ∈ x'.streams, stream.Routed publishes x'.phase.connection x'.handle

/-- A step that leaves the registry and the number alone. -/
theorem Moves.of_same (hmade : x'.handle = x.handle ∧ x'.identity = x.identity)
    (hconnection : x'.phase.connection = x.phase.connection)
    (hserved : x'.phase.served = x.phase.served) (hleft : ∀ c, x.phase ≠ .left c)
    (hrouted : (∀ stream ∈ x.streams, stream.Routed publishes x.phase.connection x.handle) →
      ∀ stream ∈ x'.streams, stream.Routed publishes x'.phase.connection x'.handle) :
    Moves publishes limit r next x x' r next where
  made := hmade
  number := Or.inr ⟨hconnection, rfl⟩
  left := fun c hl => absurd hl (hleft c)
  draining := rfl
  others := fun _ _ => rfl
  own := fun _ e' _ he' => Or.inr ⟨hserved, e', he', rfl, rfl⟩
  sound := fun h _ => h
  routed := hrouted

/-- The number of a call that moved is its old one, or the one just handed out. -/
theorem Moves.connection_cases (hm : Moves publishes limit r next x x' r' next')
    {c : ConnectionId} (hc : x'.phase.connection = some c) :
    x.phase.connection = some c ∨ (c = ⟨next⟩ ∧ next' = next + 1) := by
  rcases hm.number with ⟨-, hp, hn⟩ | ⟨hp, -⟩
  · rw [hp] at hc
    exact Or.inr ⟨(Option.some.inj hc).symm, hn⟩
  · exact Or.inl (hp ▸ hc)

/-- No number is taken back. -/
theorem Moves.next_le (hm : Moves publishes limit r next x x' r' next') : next ≤ next' := by
  rcases hm.number with ⟨-, -, hn⟩ | ⟨-, hn⟩
  · omega
  · omega

/-- A stream of a call without a number was not handed to the application. -/
theorem routed_of_none {handle : MuxHandle} {stream : ServedStream ρ}
    (h : stream.Routed publishes none handle) (connection : Option ConnectionId) :
    stream.Routed publishes connection handle := by
  unfold ServedStream.Routed at h ⊢
  cases hf : stream.handler with
  | made => trivial
  | command call => rwa [hf] at h
  | app context =>
    rw [hf] at h
    cases h.2.1
  | replied package => rwa [hf] at h

/-- **The steps of a call**, in one statement. -/
theorem moves_of_step (h : x.step publishes limit r next a = some (x', r', next')) :
    Moves publishes limit r next x x' r' next' := by
  cases takes_of_step h with
  | number hp =>
    refine ⟨⟨rfl, rfl⟩, Or.inl ⟨hp, rfl, rfl⟩, ?_, rfl, fun _ _ => rfl, ?_, fun hs _ => hs, ?_⟩
    · intro c hl
      rw [hp] at hl
      cases hl
    · intro c e' hc
      rw [hp] at hc
      cases hc
    · intro hrouted stream hmem
      have hr := hrouted stream hmem
      rw [hp] at hr
      exact routed_of_none hr _
  | @enter c hp =>
    have hconnection : x.phase.connection = some c := by rw [hp]; rfl
    refine ⟨⟨rfl, rfl⟩, Or.inr ⟨hconnection.symm, rfl⟩, ?_, rfl, ?_, ?_, ?_, ?_⟩
    · intro c' hl
      rw [hp] at hl
      cases hl
    · intro c' hc'
      rw [admitConnection_entry, if_neg]
      rintro rfl
      exact hc' hconnection
    · intro c' e' hc' he'
      obtain rfl : c = c' := Option.some.inj (hconnection.symm.trans hc')
      rw [admitConnection_entry, if_pos rfl] at he'
      cases he'
      exact Or.inl ⟨rfl, rfl, rfl⟩
    · intro hs hfree
      exact hs.admitConnection x.handle x.identity (hfree c hp)
    · rw [hconnection]
      exact id
  | @receive c frame hp =>
    refine Moves.of_same ⟨rfl, rfl⟩ rfl rfl (fun c' hl => by rw [hp] at hl; cases hl) ?_
    intro hrouted stream hmem
    rcases List.mem_append.mp hmem with hmem | hmem
    · exact hrouted stream hmem
    · rw [List.mem_singleton.mp hmem]
      trivial
  | @handler k c stream b f' r' hc hk hf =>
    have htouches := Handler.touches hf
    refine ⟨⟨rfl, rfl⟩, Or.inr ⟨rfl, rfl⟩, fun _ hl => hl, htouches.draining, ?_, ?_,
      fun hs _ => htouches.sound hs, ?_⟩
    · intro c' hc'
      refine htouches.others c' ?_
      rintro rfl
      exact hc' hc
    · intro c' e' hc' he'
      obtain rfl : c = c' := Option.some.inj (hc.symm.trans hc')
      have hown := htouches.own
      rw [he', Option.map_some] at hown
      obtain ⟨e, he, heq⟩ := Option.map_eq_some_iff.mp hown.symm
      simp only [Prod.mk.injEq] at heq
      exact Or.inr ⟨rfl, e, he, heq.1, heq.2⟩
    · intro hrouted stream' hmem
      rcases List.mem_or_eq_of_mem_set hmem with hmem | rfl
      · exact hrouted stream' hmem
      · have hold := hrouted stream (List.mem_of_getElem? hk)
        rw [hc] at hold ⊢
        exact routed_handler hold hf
  | @finish c hp =>
    refine Moves.of_same ⟨rfl, rfl⟩ (by rw [hp]; rfl) (by rw [hp]; rfl)
      (fun c' hl => by rw [hp] at hl; cases hl) ?_
    rw [hp]
    exact id
  | @leave c hp =>
    have hconnection : x.phase.connection = some c := by rw [hp]; rfl
    refine ⟨⟨rfl, rfl⟩, Or.inr ⟨hconnection.symm, rfl⟩, ?_, rfl, ?_, ?_,
      fun hs _ => hs.dropConnection c, ?_⟩
    · intro c' hl
      rw [hp] at hl
      cases hl
    · intro c' hc'
      rw [dropConnection_entry, if_neg]
      rintro rfl
      exact hc' hconnection
    · intro c' e' hc' he'
      obtain rfl : c = c' := Option.some.inj (hconnection.symm.trans hc')
      rw [dropConnection_entry, if_pos rfl] at he'
      cases he'
    · rw [hconnection]
      exact id

/-! ### A call and the same call alone -/

/-- The registry `r₀` that has only this call is to it what `r` is. -/
structure Alone (x : ServedConnection ρ) (r r₀ : TopicRegistry) (next₀ : ℕ) : Prop where
  /-- Both drain or neither. -/
  draining : r₀.draining = r.draining
  /-- Its number is still to come. -/
  called : x.phase = .called → next₀ = 1 ∧ r₀.entry ⟨1⟩ = none
  /-- The entries of its connection. -/
  entry : ∀ c, x.phase.connection = some c → r₀.entry ⟨1⟩ = r.entry c

theorem Alone.alike {c : ConnectionId} (h : x.Alone r r₀ next₀) (hc : x.phase.connection = some c) :
    Alike r c r₀ ⟨1⟩ :=
  ⟨h.draining, h.entry c hc⟩

theorem connection_renumber {p : ServePhase} {c c₀ : ConnectionId} (h : p.connection = some c) :
    (p.renumber c₀).connection = some c₀ := by
  cases p with
  | called => cases h
  | numbered c => rfl
  | serving c => rfl
  | leaving c => rfl
  | left c => rfl

/-- **A step of a call is a step of the same call alone.** -/
theorem step_alone (h : x.Alone r r₀ next₀) (hfree : r.entry ⟨next⟩ = none)
    (hst : x.step publishes limit r next a = some (x', r', next')) :
    ∃ r₀' next₀', (x.renumber ⟨1⟩).step publishes limit r₀ next₀ a =
      some (x'.renumber ⟨1⟩, r₀', next₀') ∧ x'.Alone r' r₀' next₀' := by
  cases takes_of_step hst with
  | number hp =>
    obtain ⟨rfl, hnone⟩ := h.called hp
    refine ⟨r₀, 2, ?_, h.draining, fun hc => (by cases hc), ?_⟩
    · simp only [ServedConnection.step, ServedConnection.renumber, hp, ServePhase.renumber]
    · intro c hc
      obtain rfl : (⟨next⟩ : ConnectionId) = c := Option.some.inj hc
      rw [hnone, hfree]
  | @enter c hp =>
    refine ⟨r₀.admitConnection ⟨1⟩ x.handle x.identity, next₀, ?_, h.draining,
      fun hc => (by cases hc), ?_⟩
    · simp only [ServedConnection.step, ServedConnection.renumber, hp, ServePhase.renumber]
    · intro c' hc
      obtain rfl : c = c' := Option.some.inj hc
      rw [admitConnection_entry, admitConnection_entry, if_pos rfl, if_pos rfl]
  | @receive c frame hp =>
    refine ⟨r₀, next₀, ?_, h.draining, h.called, h.entry⟩
    simp only [ServedConnection.step, ServedConnection.renumber, hp, ServePhase.renumber,
      List.map_append, List.map_singleton]
    rfl
  | @handler k c stream b f' r' hc hk hf =>
    obtain ⟨r₀', hf₀, halike⟩ := Handler.step_alike (h.alike hc) hf
    refine ⟨r₀', next₀, ?_, halike.draining, ?_, ?_⟩
    · have hk₀ : (x.streams.map (ServedStream.renumber ⟨1⟩))[k]? = some (stream.renumber ⟨1⟩) := by
        rw [List.getElem?_map, hk]
        rfl
      have hc₀ : (x.phase.renumber ⟨1⟩).connection = some ⟨1⟩ := connection_renumber hc
      simp only [ServedConnection.step, ServedConnection.renumber, hc₀, hk₀]
      rw [show (stream.renumber ⟨1⟩).handler = stream.handler.renumber ⟨1⟩ from rfl,
        show (stream.renumber ⟨1⟩).frame = stream.frame from rfl, hf₀, List.map_set]
      rfl
    · intro hcalled
      rw [show x.phase = .called from hcalled] at hc
      cases hc
    · intro c' hc'
      obtain rfl : c = c' := Option.some.inj (hc.symm.trans hc')
      exact halike.entry
  | @finish c hp =>
    refine ⟨r₀, next₀, ?_, h.draining, fun hc => (by cases hc), ?_⟩
    · simp only [ServedConnection.step, ServedConnection.renumber, hp, ServePhase.renumber]
    · intro c' hc
      exact h.entry c' (by rw [hp]; exact hc)
  | @leave c hp =>
    refine ⟨r₀.dropConnection ⟨1⟩, next₀, ?_, h.draining, fun hc => (by cases hc), ?_⟩
    · simp only [ServedConnection.step, ServedConnection.renumber, hp, ServePhase.renumber]
    · intro c' hc
      obtain rfl : c = c' := Option.some.inj hc
      rw [dropConnection_entry, dropConnection_entry, if_pos rfl, if_pos rfl]

end ServedConnection

end Pubsub
end TightbeamExt
