import TightbeamExt.Base.Transition
import TightbeamExt.Pubsub.Backplane
import TightbeamExt.Pubsub.Dispatch
import TightbeamExt.Pubsub.Node

/-!
# Commands between their sections

An `answer` call takes the state lock more than once.  `authorized_topic` reads the
connection's identity under the lock, lets it go, and asks a policy; `register` takes the
lock again and looks the connection up once more; a publish goes to the backplane, which
never asks about the connection.  In between other calls run, and the connection may be
dropped.

The verdicts of the policies and the answer of the backplane are the environment's.  Every
policy call, every accepted `sub/` and every accepted publish is on record under the
`answer` call it belongs to; a policy call also with whether the connection was registered
at that time.

Connections and subscribers are numbered without end, which is what the `AtomicU64` counters
do for fewer than 2^64 ids allocated.

## Main definitions

* `Server`, `Server.step` — the answer calls in flight on one registry, section by section.
* `Decision`, `AcceptedSubscribe`, `AcceptedPublish` — what is on record.
* `Server.Serves` — what serving a command leaves of the registry.

## Main results

* `subscribe_in_one_go` — played without interruption, the sections are `subscribe`.
* `accept_cases`, `serves_accept` — what a frame may start.
-/

namespace TightbeamExt
namespace Pubsub

open Transition

/-! ### Commands -/

/-- The commands of the wire. -/
inductive CommandKind
  /-- `sub/`. -/
  | sub
  /-- `unsub/`. -/
  | unsub
  /-- `pub/`. -/
  | pub
  deriving DecidableEq, Repr

/-- The commands a policy guards. -/
inductive Guarded
  /-- `sub/`, by the `SubscribePolicy`. -/
  | sub
  /-- `pub/`, by the `PublishPolicy`. -/
  | pub
  deriving DecidableEq, Repr

/-- The command behind a guard. -/
def Guarded.kind : Guarded → CommandKind
  | .sub => .sub
  | .pub => .pub

/-- What `answer` reads of a frame. -/
structure CommandFrame where
  /-- `metadata.id`. -/
  id : Octets
  /-- What `opaque_payload` recovers from the body. -/
  body : Option Octets
  deriving DecidableEq, Repr

/-- `TopicRegistry::publish` past its payload, with the answer of the backplane. -/
def TopicRegistry.publish (r : TopicRegistry) (answer : Except BackplaneError Unit) :
    Except PublishError Unit :=
  if r.draining then .error .draining
  else
    match answer with
    | .ok () => .ok ()
    | .error cause => .error (PublishError.ofBackplane cause)

/-- The answer to a `pub/` command. -/
def PubsubCommands.publishAnswer : Except PublishError Unit → TransitStatus
  | .ok () => .ok
  | .error .draining => .unavailable
  | .error (.build _) => .internal
  | .error (.backplane _) => .unavailable

/-- An `answer` call between two sections. -/
inductive Call
  /-- The identity is read; the policy is asked. -/
  | asking (g : Guarded) (c : ConnectionId) (identity : Option Octets) (topic : Topic)
      (body : Option Octets)
  /-- The policy allowed a `sub/`. -/
  | registering (c : ConnectionId) (topic : Topic)
  /-- The policy allowed a `pub/`. -/
  | publishing (c : ConnectionId) (topic : Topic) (payload : Octets)
  /-- It returned. -/
  | answered (k : CommandKind) (status : TransitStatus)
  deriving DecidableEq

/-- A policy call. -/
structure Decision where
  /-- The `answer` call it was made for. -/
  call : ℕ
  /-- The command. -/
  command : Guarded
  /-- The connection it came from. -/
  connection : ConnectionId
  /-- The identity the policy was asked about. -/
  identity : Option Octets
  /-- The topic it was asked about. -/
  topic : Topic
  /-- What it said. -/
  verdict : AccessVerdict
  /-- The connection was registered then. -/
  standing : Bool
  deriving DecidableEq

/-- A `sub/` that registered, or found the registration there. -/
structure AcceptedSubscribe where
  /-- The `answer` call. -/
  call : ℕ
  /-- The connection it came from. -/
  connection : ConnectionId
  /-- The topic. -/
  topic : Topic
  /-- The subscriber. -/
  subscriber : SubscriberId
  deriving DecidableEq

/-- An accepted publish. -/
structure AcceptedPublish where
  /-- The `answer` call. -/
  call : ℕ
  /-- The connection it came from. -/
  connection : ConnectionId
  /-- The topic. -/
  topic : Topic
  deriving DecidableEq

/-- A registry and the calls on it. -/
structure Server where
  /-- The registry. -/
  registry : TopicRegistry
  /-- The next connection number. -/
  nextConnection : ℕ
  /-- The admissions under way. -/
  admitting : List Admission
  /-- The identities attached so far, also to connections that are gone. -/
  attached : ConnectionId → Option (Option Octets)
  /-- The `answer` calls, in the order they were made. -/
  calls : List Call
  /-- The policy calls so far. -/
  decisions : List Decision
  /-- The `sub/` commands that registered so far. -/
  subscriptions : List AcceptedSubscribe
  /-- The accepted publishes so far. -/
  publications : List AcceptedPublish

/-- Who moves. -/
inductive ServerAction
  /-- `register_connection(_as)` takes a number. -/
  | allocate (handle : MuxHandle) (identity : Option Octets)
  /-- It inserts the connection. -/
  | admission (i : ℕ)
  /-- `drop_connection`, or a disconnect of the delivery policy. -/
  | drop (c : ConnectionId)
  /-- `quiesce` sets the draining flag. -/
  | quiesce
  /-- A frame arrives on a connection. -/
  | answer (c : ConnectionId) (frame : CommandFrame)
  /-- A policy answers. -/
  | judge (i : ℕ) (verdict : AccessVerdict)
  /-- An allowed `sub/` registers. -/
  | register (i : ℕ)
  /-- An allowed `pub/` publishes. -/
  | publish (i : ℕ) (answer : Except BackplaneError Unit)

namespace Server

/-- The connection is registered. -/
def registered (s : Server) (c : ConnectionId) : Bool := (s.registry.memberIdentity c).isSome

/-- `authorized_topic` up to the policy. -/
def ask (s : Server) (g : Guarded) (c : ConnectionId) (name : Octets) (body : Option Octets) : Call :=
  match Topic.tryFrom name with
  | .error _ => .answered g.kind .invalidArgument
  | .ok topic =>
      match s.registry.memberIdentity c with
      | none => .answered g.kind .permissionDenied
      | some identity => .asking g c identity topic body

/-- `answer` up to the policy; an `unsub/` is answered at once. -/
def accept (publishes : Bool) (s : Server) (c : ConnectionId) (frame : CommandFrame) :
    Option (Call × TopicRegistry) :=
  match PubsubCommands.stripFront (utf8 subPrefix) frame.id with
  | some name => some (s.ask .sub c name frame.body, s.registry)
  | none =>
      match PubsubCommands.stripFront (utf8 unsubPrefix) frame.id with
      | some name =>
          let r := PubsubCommands.unsubscribe c name s.registry
          some (.answered .unsub r.1, r.2)
      | none =>
          match PubsubCommands.stripFront (utf8 pubPrefix) frame.id with
          | some name => if publishes then some (s.ask .pub c name frame.body, s.registry) else none
          | none => none

/-- Past the policy. -/
def judged (g : Guarded) (c : ConnectionId) (topic : Topic) (body : Option Octets) :
    AccessVerdict → Call
  | .forbid => .answered g.kind .permissionDenied
  | .allow =>
      match g, body with
      | .sub, _ => .registering c topic
      | .pub, none => .answered .pub .invalidArgument
      | .pub, some payload => .publishing c topic payload

/-- The section that registers. -/
def enroll (limit : ℕ) (s : Server) (i : ℕ) (c : ConnectionId) (topic : Topic) : Server :=
  match s.registry.register limit c topic with
  | (.ok id, r) =>
      { s with
        registry := r
        calls := s.calls.set i (.answered .sub .ok)
        subscriptions := s.subscriptions ++ [⟨i, c, topic, id⟩] }
  | (.error e, r) =>
      { s with registry := r, calls := s.calls.set i (.answered .sub (PubsubCommands.refusal e)) }

/-- The publish. -/
def release (s : Server) (i : ℕ) (c : ConnectionId) (topic : Topic)
    (answer : Except BackplaneError Unit) : Server :=
  let status := PubsubCommands.publishAnswer (s.registry.publish answer)
  { s with
    calls := s.calls.set i (.answered .pub status)
    publications :=
      if status = .ok then s.publications ++ [⟨i, c, topic⟩] else s.publications }

/-- One section.  `publishes` says whether a `PublishPolicy` is installed. -/
def step (publishes : Bool) (limit : ℕ) (s : Server) : ServerAction → Option Server
  | .allocate handle identity =>
      some { s with
        nextConnection := s.nextConnection + 1
        admitting := s.admitting ++ [⟨⟨s.nextConnection⟩, handle, identity⟩] }
  | .admission i =>
      match s.admitting[i]? with
      | none => none
      | some x =>
          some { s with
            admitting := s.admitting.eraseIdx i
            registry := { s.registry with
              state := s.registry.state.admitConnection x.connection x.handle x.identity }
            attached := Function.update s.attached x.connection (some x.identity) }
  | .drop c =>
      some { s with registry := { s.registry with state := (s.registry.state.dropConnection c).2 } }
  | .quiesce => some { s with registry := { s.registry with draining := true } }
  | .answer c frame =>
      match s.accept publishes c frame with
      | none => some s
      | some (k, r) => some { s with registry := r, calls := s.calls ++ [k] }
  | .judge i verdict =>
      match s.calls[i]? with
      | some (.asking g c identity topic body) =>
          some { s with
            calls := s.calls.set i (judged g c topic body verdict)
            decisions := s.decisions ++ [⟨i, g, c, identity, topic, verdict, s.registered c⟩] }
      | _ => none
  | .register i =>
      match s.calls[i]? with
      | some (.registering c topic) => some (s.enroll limit i c topic)
      | _ => none
  | .publish i answer =>
      match s.calls[i]? with
      | some (.publishing c topic _) => some (s.release i c topic answer)
      | _ => none

/-- A new registry. -/
def start : Server := ⟨⟨false, 1, State.empty⟩, 1, [], fun _ => none, [], [], [], []⟩

/-! ### The sections in one go -/

/-- The policy answers the last call. -/
theorem judge_last (publishes : Bool) (limit : ℕ) {s : Server} {calls : List Call} {g : Guarded}
    {c : ConnectionId} {identity : Option Octets} {topic : Topic} {body : Option Octets}
    (h : s.calls = calls ++ [.asking g c identity topic body]) (v : AccessVerdict) :
    s.step publishes limit (.judge calls.length v) =
      some { s with
        calls := calls ++ [judged g c topic body v]
        decisions := s.decisions ++ [⟨calls.length, g, c, identity, topic, v, s.registered c⟩] } := by
  simp [step, h]

/-- The last call registers. -/
theorem register_last (publishes : Bool) (limit : ℕ) {s : Server} {calls : List Call}
    {c : ConnectionId} {topic : Topic} (h : s.calls = calls ++ [.registering c topic]) :
    s.step publishes limit (.register calls.length) = some (s.enroll limit calls.length c topic) := by
  simp [step, h]

/-- Played without interruption, the sections of a `sub/` call are `subscribe`. -/
theorem subscribe_in_one_go (publishes : Bool) (limit : ℕ) (policy : SubscribePolicy) (s : Server)
    (c : ConnectionId) (frame : CommandFrame) {name : Octets}
    (hname : PubsubCommands.stripFront (utf8 subPrefix) frame.id = some name) :
    ∃ s', Reachable (step publishes limit) s s' ∧
      s'.registry = (PubsubCommands.subscribe policy limit c name s.registry).2 ∧
      s'.calls = s.calls ++
        [.answered .sub (PubsubCommands.subscribe policy limit c name s.registry).1] := by
  have hask : s.step publishes limit (.answer c frame) =
      some { s with calls := s.calls ++ [s.ask .sub c name frame.body] } := by
    simp [step, accept, hname]
  have hone : Reachable (step publishes limit) s
      { s with calls := s.calls ++ [s.ask .sub c name frame.body] } :=
    Reaches.next .start trivial hask
  unfold PubsubCommands.subscribe PubsubCommands.authorizedTopic
  cases htopic : Topic.tryFrom name with
  | error e => exact ⟨_, hone, rfl, by simp [ask, htopic, Guarded.kind]⟩
  | ok topic =>
    cases hid : s.registry.memberIdentity c with
    | none => exact ⟨_, hone, rfl, by simp [ask, htopic, hid, Guarded.kind]⟩
    | some identity =>
      have hcalls : s.ask .sub c name frame.body = .asking .sub c identity topic frame.body := by
        simp only [ask, htopic, hid]
      rw [hcalls] at hone
      -- the policy is asked about the identity that was read
      have htwo := hone.next trivial (judge_last publishes limit rfl (policy identity topic))
      cases hv : policy identity topic with
      | forbid => exact ⟨_, htwo, by simp [hv], by simp [hv, judged, Guarded.kind]⟩
      | allow =>
        rw [hv] at htwo
        have hthree := htwo.next trivial (register_last publishes limit rfl)
        cases hr : s.registry.register limit c topic with
        | mk res r =>
          cases res with
          | ok id => exact ⟨_, hthree, by simp [enroll, hv, hr], by simp [enroll, hv, hr]⟩
          | error e => exact ⟨_, hthree, by simp [enroll, hv, hr], by simp [enroll, hv, hr]⟩

/-! ### Connections along the registry's operations -/

/-- What serving a command does: connections keep their standing, and only the memberships
`new` are new. -/
structure Serves (r r' : TopicRegistry) (new : ConnectionId → Topic → SubscriberId → Prop) :
    Prop where
  /-- Standing and identity. -/
  identity : ∀ c, r'.memberIdentity c = r.memberIdentity c
  /-- Memberships. -/
  holds : ∀ c topic id, r'.state.Holds c topic id → r.state.Holds c topic id ∨ new c topic id

theorem Serves.refl (r : TopicRegistry) : Serves r r fun _ _ _ => False :=
  ⟨fun _ => rfl, fun _ _ _ => Or.inl⟩

theorem lookup_dropConnection (c c' : ConnectionId) (s : State) :
    (s.dropConnection c).2.connections.lookup c' =
      if c' = c then none else s.connections.lookup c' := by
  unfold State.dropConnection
  cases hc : s.connections.lookup c with
  | none =>
    simp only
    split
    · next h => rw [h, hc]
    · rfl
  | some connected =>
    have hkeep : ∀ (ids : List SubscriberId) (s : State),
        (ids.foldl State.removeSubscriber s).connections = s.connections := by
      intro ids
      induction ids with
      | nil => intro s; rfl
      | cons id ids ih =>
        intro s
        rw [List.foldl_cons, ih]
        exact State.connections_removeSubscriber id
    simp only [hkeep]
    exact Table.lookup_erase_eq c c' s.connections

/-- A connection's identity does not depend on what it holds. -/
theorem memberIdentity_insert {r : TopicRegistry} {c : ConnectionId} {k k' : ConnectionState}
    (hk : r.state.connections.lookup c = some k) (hid : k'.identity = k.identity) (c' : ConnectionId) :
    ((r.state.connections.insert c k').lookup c').map ConnectionState.identity =
      r.memberIdentity c' := by
  rw [Table.lookup_insert_eq, TopicRegistry.memberIdentity]
  split
  · next h =>
    subst h
    rw [hk, Option.map_some, Option.map_some, hid]
  · rfl

theorem serves_register (limit : ℕ) (r : TopicRegistry) (c : ConnectionId) (topic : Topic) :
    Serves r (r.register limit c topic).2 fun c' t id =>
      c' = c ∧ t = topic ∧ (r.register limit c topic).1 = .ok id ∧
        (r.memberIdentity c).isSome = true := by
  unfold TopicRegistry.register
  split
  · exact ⟨fun _ => rfl, fun _ _ _ => Or.inl⟩
  · split
    · exact ⟨fun _ => rfl, fun _ _ _ => Or.inl⟩
    · exact ⟨fun _ => rfl, fun _ _ _ => Or.inl⟩
    · next s' hr =>
      obtain ⟨connected, hc, -, -, rfl⟩ := State.created_of_register hr
      refine ⟨memberIdentity_insert hc rfl, ?_⟩
      intro c' t id hid
      rcases (State.holds_register hr).mp hid with ⟨rfl, rfl, rfl⟩ | hold
      · exact Or.inr ⟨rfl, rfl, rfl, by simp [TopicRegistry.memberIdentity, hc]⟩
      · exact Or.inl hold

/-- A refused registration changes nothing. -/
theorem register_error {limit : ℕ} {r r' : TopicRegistry} {c : ConnectionId} {topic : Topic}
    {e : RegisterError} (h : r.register limit c topic = (.error e, r')) : r' = r := by
  unfold TopicRegistry.register at h
  split at h
  · cases h; rfl
  · split at h
    · cases h; rfl
    · cases h
    · cases h

theorem serves_unregister (r : TopicRegistry) (c : ConnectionId) (topic : Topic) :
    Serves r (r.unregister c topic).2 fun _ _ _ => False := by
  unfold TopicRegistry.unregister State.unregister
  cases hc : r.state.connections.lookup c with
  | none => exact ⟨fun _ => rfl, fun _ _ _ => Or.inl⟩
  | some connected =>
    cases ht : connected.topics.lookup topic with
    | none =>
      simp only [ht]
      exact ⟨fun _ => rfl, fun _ _ _ => Or.inl⟩
    | some removed =>
      simp only [ht]
      refine ⟨?_, ?_⟩
      · intro c'
        rw [TopicRegistry.memberIdentity, State.connections_removeSubscriber]
        exact memberIdentity_insert hc (show ({ connected with
          topics := connected.topics.erase topic } : ConnectionState).identity = _ from rfl) c'
      · rintro c' t id ⟨k, hk, hkt⟩
        left
        rw [State.connections_removeSubscriber] at hk
        rw [Table.lookup_insert_eq] at hk
        split at hk
        · next h =>
          subst h
          cases hk
          rw [Table.lookup_erase_eq] at hkt
          split at hkt
          · cases hkt
          · exact ⟨connected, hc, hkt⟩
        · exact ⟨k, hk, hkt⟩

theorem memberIdentity_admitConnection (r : TopicRegistry) (x : Admission) (c : ConnectionId) :
    TopicRegistry.memberIdentity c
        { r with state := r.state.admitConnection x.connection x.handle x.identity } =
      if c = x.connection then some x.identity else r.memberIdentity c := by
  simp only [TopicRegistry.memberIdentity, State.admitConnection, Table.lookup_insert_eq]
  split <;> rfl

theorem holds_admitConnection {s : State} {x : Admission} {c : ConnectionId} {topic : Topic}
    {id : SubscriberId}
    (h : (s.admitConnection x.connection x.handle x.identity).Holds c topic id) :
    s.Holds c topic id := by
  obtain ⟨k, hk, hkt⟩ := h
  simp only [State.admitConnection, Table.lookup_insert_eq] at hk
  split at hk
  · -- a new connection holds nothing
    cases hk
    simp at hkt
  · exact ⟨k, hk, hkt⟩

theorem holds_dropConnection {s : State} {c c' : ConnectionId} {topic : Topic} {id : SubscriberId}
    (h : (s.dropConnection c).2.Holds c' topic id) : s.Holds c' topic id := by
  obtain ⟨k, hk, hkt⟩ := h
  rw [lookup_dropConnection] at hk
  split at hk
  · cases hk
  · exact ⟨k, hk, hkt⟩

/-! ### What a frame may start -/

theorem ask_ne_accepted (s : Server) (g : Guarded) (c : ConnectionId) (name : Octets)
    (body : Option Octets) : s.ask g c name body ≠ .answered .pub .ok := by
  unfold ask
  split
  · simp
  · split <;> simp

/-- What a frame may start. -/
theorem accept_cases {publishes : Bool} {s : Server} {c : ConnectionId} {frame : CommandFrame}
    {k : Call} {r : TopicRegistry} (h : s.accept publishes c frame = some (k, r)) :
    (∃ g name, k = s.ask g c name frame.body ∧ r = s.registry) ∨
      ∃ name status, k = .answered .unsub status ∧
        r = (PubsubCommands.unsubscribe c name s.registry).2 := by
  unfold accept at h
  split at h
  · next name _ =>
    cases h
    exact Or.inl ⟨.sub, name, rfl, rfl⟩
  · split at h
    · next name _ =>
      cases h
      exact Or.inr ⟨name, _, rfl, rfl⟩
    · split at h
      · next name _ =>
        split at h
        · cases h
          exact Or.inl ⟨.pub, name, rfl, rfl⟩
        · cases h
      · cases h

theorem serves_unsubscribe (c : ConnectionId) (name : Octets) (r : TopicRegistry) :
    Serves r (PubsubCommands.unsubscribe c name r).2 fun _ _ _ => False := by
  unfold PubsubCommands.unsubscribe
  split
  · exact Serves.refl r
  · exact serves_unregister r c _

theorem serves_accept {publishes : Bool} {s : Server} {c : ConnectionId} {frame : CommandFrame}
    {k : Call} {r : TopicRegistry} (h : s.accept publishes c frame = some (k, r)) :
    Serves s.registry r fun _ _ _ => False := by
  rcases accept_cases h with ⟨g, name, -, rfl⟩ | ⟨name, status, -, rfl⟩
  · exact Serves.refl _
  · exact serves_unsubscribe c name s.registry

/-- A `pub/prices` command without a payload. -/
def pubPrices : CommandFrame := ⟨utf8 (pubPrefix ++ Topic.prices.name), some []⟩

/-- The `sub/prices` command. -/
def subPrices : CommandFrame := ⟨utf8 (subPrefix ++ Topic.prices.name), some []⟩

end Server
end Pubsub
end TightbeamExt
