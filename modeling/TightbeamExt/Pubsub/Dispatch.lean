import TightbeamExt.Pubsub.Registry

/-!
# Serve-side command dispatch

`PubsubCommands` answers the `sub/` and `unsub/` frames of a connection against one
registry and leaves every other frame to the application.  Client publish is off
until a publish policy is installed; this is the dispatcher without one, for which a
`pub/` frame is a frame of the application.

The registry is seen here as its callers see it: a call of `register` or
`unregister` is one section under the state lock, with the draining flag read inside.

## Main definitions

* `TopicRegistry`, `register`, `unregister`, `memberIdentity`.
* `PubsubCommands.answer`, `authorizedTopic`, `subscribe`, `unsubscribe`.
* `TopicRegistry.Registered` — a connection is registered for a topic.

## Main results

* `answer_sub`, `answer_unsub` — **what an `Ok` answer did**: the connection is
  registered for the topic of a `sub/` frame and not for that of an `unsub/` frame,
  and for every other topic as before.
-/

namespace TightbeamExt
namespace Pubsub

/-! ### The registry -/

/-- A registry between two calls. -/
structure TopicRegistry where
  /-- `quiesce` ran. -/
  draining : Bool
  /-- The next subscriber number. -/
  nextSubscriber : ℕ
  /-- The maps. -/
  state : State

namespace TopicRegistry

/-- `register`. -/
def register (limit : ℕ) (c : ConnectionId) (t : Topic) (r : TopicRegistry) :
    Except RegisterError SubscriberId × TopicRegistry :=
  if r.draining then (.error .draining, r)
  else
    match r.state.register limit ⟨r.nextSubscriber⟩ c t with
    | .refused e => (.error e, r)
    | .existing id => (.ok id, r)
    | .created s =>
        (.ok ⟨r.nextSubscriber⟩, { r with state := s, nextSubscriber := r.nextSubscriber + 1 })

/-- `unregister`: whether a subscription existed. -/
def unregister (c : ConnectionId) (t : Topic) (r : TopicRegistry) : Bool × TopicRegistry :=
  ((r.state.unregister c t).1.isSome, { r with state := (r.state.unregister c t).2 })

/-- `member_identity`. -/
def memberIdentity (c : ConnectionId) (r : TopicRegistry) : Option (Option Octets) :=
  (r.state.connections.lookup c).map ConnectionState.identity

/-- The connection is registered for the topic. -/
def Registered (r : TopicRegistry) (c : ConnectionId) (t : Topic) : Prop :=
  ∃ id, r.state.Holds c t id

instance (r : TopicRegistry) (c : ConnectionId) (t : Topic) : Decidable (r.Registered c t) :=
  decidable_of_iff (((r.state.connections.lookup c).bind fun k => k.topics.lookup t).isSome) (by
    rw [Option.isSome_iff_exists]
    simp only [Option.bind_eq_some_iff]
    exact Iff.rfl)

/-- A registration that succeeds adds its topic and no other. -/
theorem registered_register {limit : ℕ} {c : ConnectionId} {t : Topic} {r r' : TopicRegistry}
    {id : SubscriberId} (h : r.register limit c t = (.ok id, r')) (t' : Topic) :
    r'.Registered c t' ↔ t' = t ∨ r.Registered c t' := by
  unfold register at h
  split at h
  · cases h
  · split at h
    · cases h
    · -- the topic was there already
      next existing he =>
      cases h
      have hthere := State.holds_of_existing he
      constructor
      · exact Or.inr
      · rintro (rfl | hreg)
        · exact ⟨_, hthere⟩
        · exact hreg
    · next s hs =>
      cases h
      have hholds : ∀ id', s.Holds c t' id' ↔
          (c = c ∧ t' = t ∧ id' = ⟨r.nextSubscriber⟩) ∨ r.state.Holds c t' id' :=
        fun _ => State.holds_register hs
      simp only [Registered, hholds]
      by_cases htt : t' = t
      · simp [htt]
      · simp [htt]

/-- `unregister` takes its topic away and no other. -/
theorem registered_unregister (c : ConnectionId) (t : Topic) (r : TopicRegistry) (t' : Topic) :
    (r.unregister c t).2.Registered c t' ↔ t' ≠ t ∧ r.Registered c t' := by
  simp only [unregister, Registered, State.Holds]
  cases hc : r.state.connections.lookup c with
  | none =>
    have hun : r.state.unregister c t = (none, r.state) := by simp [State.unregister, hc]
    simp [hun, hc]
  | some connected =>
    cases ht : connected.topics.lookup t with
    | none =>
      have hun : r.state.unregister c t = (none, r.state) := by simp [State.unregister, hc, ht]
      simp only [hun, hc, Option.some.injEq, exists_eq_left']
      constructor
      · rintro ⟨id, hid⟩
        refine ⟨?_, id, hid⟩
        rintro rfl
        rw [ht] at hid
        cases hid
      · exact And.right
    | some removed =>
      have hun : (r.state.unregister c t).2.connections =
          r.state.connections.insert c { connected with topics := connected.topics.erase t } := by
        simp [State.unregister, hc, ht]
      simp only [hun, Table.lookup_insert_eq, if_true, Option.some.injEq, exists_eq_left',
        Table.lookup_erase_eq]
      by_cases htt : t' = t
      · simp [htt]
      · simp [htt]

end TopicRegistry

/-! ### The commands -/

/-- The status of a response. -/
inductive TransitStatus
  /-- Accepted. -/
  | ok
  /-- The topic name does not parse. -/
  | invalidArgument
  /-- The connection has no standing, or the policy forbids. -/
  | permissionDenied
  /-- The registry is draining. -/
  | unavailable
  /-- The connection holds too many subscriptions. -/
  | resourceExhausted
  /-- The update frame failed to build. -/
  | internal
  deriving DecidableEq, Repr

/-- Whether a connection may perform the guarded action on a topic. -/
inductive AccessVerdict
  /-- Proceed. -/
  | allow
  /-- Refuse with `PermissionDenied`. -/
  | forbid
  deriving DecidableEq, Repr

/-- `SubscribePolicy::authorize`. -/
abbrev SubscribePolicy := Option Octets → Topic → AccessVerdict

/-- The default policy. -/
def allowAll : SubscribePolicy := fun _ _ => .allow

namespace PubsubCommands

/-- `slice::strip_prefix`. -/
def stripFront (p id : Octets) : Option Octets :=
  if p <+: id then some (id.drop p.length) else none

theorem stripFront_append (p q : Octets) : stripFront p (p ++ q) = some q := by
  simp [stripFront]

/-- `authorized_topic`: validate the topic and ask `authorize` for the connection's
identity. -/
def authorizedTopic (authorize : Option Octets → Topic → AccessVerdict) (c : ConnectionId)
    (name : Octets) (r : TopicRegistry) : Except TransitStatus Topic :=
  match Topic.tryFrom name with
  | .error _ => .error .invalidArgument
  | .ok topic =>
      match r.memberIdentity c with
      | none => .error .permissionDenied
      | some identity =>
          match authorize identity topic with
          | .forbid => .error .permissionDenied
          | .allow => .ok topic

/-- The answer to a failed registration. -/
def refusal : RegisterError → TransitStatus
  | .draining => .unavailable
  | .limitReached => .resourceExhausted
  | .unknownConnection => .permissionDenied

/-- Answer one `sub/<topic>` command. -/
def subscribe (policy : SubscribePolicy) (limit : ℕ) (c : ConnectionId) (name : Octets)
    (r : TopicRegistry) : TransitStatus × TopicRegistry :=
  match authorizedTopic policy c name r with
  | .error refused => (refused, r)
  | .ok topic =>
      match r.register limit c topic with
      | (.ok _, r') => (.ok, r')
      | (.error e, r') => (refusal e, r')

/-- Answer one `unsub/<topic>` command.  Idempotent. -/
def unsubscribe (c : ConnectionId) (name : Octets) (r : TopicRegistry) :
    TransitStatus × TopicRegistry :=
  match Topic.tryFrom name with
  | .error _ => (.invalidArgument, r)
  | .ok topic => (.ok, (r.unregister c topic).2)

/-- Answer `frame` when it is a command; `none` hands it to the application. -/
def answer (policy : SubscribePolicy) (limit : ℕ) (c : ConnectionId) (frame : Frame)
    (r : TopicRegistry) : Option (TransitStatus × TopicRegistry) :=
  match stripFront (utf8 subPrefix) frame.id with
  | some name => some (subscribe policy limit c name r)
  | none =>
      match stripFront (utf8 unsubPrefix) frame.id with
      | some name => some (unsubscribe c name r)
      | none => none

variable {policy : SubscribePolicy} {limit : ℕ} {c : ConnectionId} {frame : Frame}
  {r r' : TopicRegistry} {t : Topic}

/-- **An accepted `sub/` frame** registers the connection for its topic. -/
theorem answer_sub (hid : frame.id = utf8 (subPrefix ++ t.name))
    (h : answer policy limit c frame r = some (.ok, r')) (t' : Topic) :
    r'.Registered c t' ↔ t' = t ∨ r.Registered c t' := by
  unfold answer at h
  rw [hid, utf8_append, stripFront_append] at h
  simp only [Option.some.injEq] at h
  unfold subscribe at h
  cases hauth : authorizedTopic policy c (utf8 t.name) r with
  | error refused =>
    -- a refusal is none of the accepted answers
    exfalso
    rw [hauth] at h
    unfold authorizedTopic at hauth
    simp only [Prod.mk.injEq] at h
    rw [h.1, Topic.tryFrom_utf8] at hauth
    simp only at hauth
    split at hauth
    · cases hauth
    · split at hauth
      · cases hauth
      · cases hauth
  | ok topic =>
    have htopic : topic = t := by
      unfold authorizedTopic at hauth
      rw [Topic.tryFrom_utf8] at hauth
      simp only at hauth
      split at hauth
      · cases hauth
      · split at hauth
        · cases hauth
        · cases hauth
          rfl
    subst htopic
    rw [hauth] at h
    simp only at h
    split at h
    · next id r'' hreg =>
      obtain rfl : r'' = r' := (Prod.mk.inj h).2
      exact TopicRegistry.registered_register hreg t'
    · next e r'' hreg =>
      have := (Prod.mk.inj h).1
      cases e <;> cases this

/-- An `unsub/` frame of a topic is accepted. -/
theorem answer_unsub_eq (policy : SubscribePolicy) (limit : ℕ) (c : ConnectionId)
    (r : TopicRegistry) (hid : frame.id = utf8 (unsubPrefix ++ t.name)) :
    answer policy limit c frame r = some (.ok, (r.unregister c t).2) := by
  have hnotsub : stripFront (utf8 subPrefix) frame.id = none := by
    unfold stripFront
    rw [if_neg]
    rw [hid, utf8_append, show utf8 subPrefix = [0x73, 0x75, 0x62, 0x2F] by decide,
      show utf8 unsubPrefix = [0x75, 0x6E, 0x73, 0x75, 0x62, 0x2F] by decide]
    simp [List.cons_prefix_cons]
  unfold answer
  rw [hnotsub, hid, utf8_append, stripFront_append]
  simp only [unsubscribe, Topic.tryFrom_utf8]

/-- **An accepted `unsub/` frame** leaves the connection without its topic. -/
theorem answer_unsub (hid : frame.id = utf8 (unsubPrefix ++ t.name))
    (h : answer policy limit c frame r = some (.ok, r')) (t' : Topic) :
    r'.Registered c t' ↔ t' ≠ t ∧ r.Registered c t' := by
  rw [answer_unsub_eq policy limit c r hid] at h
  obtain rfl := (Prod.mk.inj (Option.some.inj h)).2
  exact TopicRegistry.registered_unregister c t r t'

end PubsubCommands
end Pubsub
end TightbeamExt
