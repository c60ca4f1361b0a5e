import TightbeamExt.Pubsub.Dispatch
import TightbeamExt.Client.Manager

/-!
# Membership at both ends of a connection

One connection that stays up: a subscription manager at one end, the server's
command dispatcher at the other.  Commands travel on streams of their own, so the
server processes them in any order, each once; the application waits for each
`subscribe` and `unsubscribe` of a topic before the next call for that topic, and
every command is answered `Ok`.

Three kinds of client code emit commands: `subscribe`, `unsubscribe`, and the resync
of a delivery that met a gap.  The last one is awaited by nobody who calls
`unsubscribe`, so its `sub/` may reach the server behind the `unsub/` — and the
server, which applies commands as they come, registers the topic again.

The client keys by names, the server by the topics it reads from them, and two names may
read as one topic.  Whoever subscribes to both ends both with one `unsubscribe`.

## Main definitions

* `Membership`, `Membership.step` — the composed system.
* `Membership.wanted` — some name of the topic is in the manager's map.
* `Membership.Orderly` — the condition on a step: a resync is processed while its topic
  is wanted, or ahead of the `unsub/` that ends it, and no name is subscribed while another
  name of its topic is in use.
* `Membership.Sole` — what the second half keeps.
* `Membership.Consistent` — the two ends agree on every topic no call is open for.

## Main results

* `membership_agrees` — **the two ends agree whenever no command is in flight**, in
  runs of orderly steps; and every resync processed out of order breaks the agreement.
* `resync_outlives_unsubscribe` — the run that leaks a server-side subscription.
-/

namespace TightbeamExt
namespace Client

open Transition Pubsub

namespace Task

/-- The name of a `subscribe` (`true`) or an `unsubscribe` (`false`). -/
def callOf : Task → Option (Bool × TopicName)
  | .subscribe t _ _ => some (true, t)
  | .unsubscribe t _ => some (false, t)
  | _ => none

/-- The id of the command the task emits. -/
def commandId : Task → Option Octets
  | .subscribe t _ _ => some (Client.commandId subPrefix t.text)
  | .unsubscribe t _ => some (Client.commandId unsubPrefix t.text)
  | .replay _ t _ _ => some (Client.commandId subPrefix t.text)
  | .delivery _ t _ _ (.resync _) => some (Client.commandId subPrefix t.text)
  | _ => none

/-- The name of a `sub/` command nobody called for. -/
def resyncOf : Task → Option TopicName
  | .replay _ t _ _ => some t
  | .delivery _ t _ _ (.resync _) => some t
  | _ => none

@[simp] theorem callOf_setPhase (p : Phase) (k : Task) : (k.setPhase p).callOf = k.callOf := by
  cases k with
  | delivery c t e n stage => cases stage <;> rfl
  | _ => rfl

/-- A call always has a command. -/
theorem callOf_eq_none {k : Task} (h : k.phase = none) : k.callOf = none := by
  cases k with
  | subscribe t e p => cases h
  | unsubscribe t p => cases h
  | _ => rfl

/-- What a command is for. -/
theorem commandId_cases {k : Task} {id : Octets} (h : k.commandId = some id) :
    (∃ t, k.callOf = some (true, t) ∧ k.resyncOf = none ∧
        id = utf8 (subPrefix ++ t.topic.name)) ∨
      (∃ t, k.callOf = some (false, t) ∧ k.resyncOf = none ∧
        id = utf8 (unsubPrefix ++ t.topic.name)) ∨
      ∃ t, k.callOf = none ∧ k.resyncOf = some t ∧ id = utf8 (subPrefix ++ t.topic.name) := by
  have hsub : ∀ t : TopicName, Client.commandId subPrefix t.text = utf8 (subPrefix ++ t.topic.name) :=
    commandId_topic (by decide)
  have hunsub : ∀ t : TopicName,
      Client.commandId unsubPrefix t.text = utf8 (unsubPrefix ++ t.topic.name) :=
    commandId_topic (by decide)
  cases k with
  | subscribe t e p => exact .inl ⟨t, rfl, rfl, (Option.some.inj h).symm.trans (hsub t)⟩
  | unsubscribe t p => exact .inr (.inl ⟨t, rfl, rfl, (Option.some.inj h).symm.trans (hunsub t)⟩)
  | replay g t e p => exact .inr (.inr ⟨t, rfl, rfl, (Option.some.inj h).symm.trans (hsub t)⟩)
  | delivery c t e n stage =>
    cases stage with
    | resync p => exact .inr (.inr ⟨t, rfl, rfl, (Option.some.inj h).symm.trans (hsub t)⟩)
    | observing => cases h
    | decoding => cases h
    | handling => cases h
  | replayed g t e c o => cases h
  | reattach => cases h
  | finished => cases h

end Task

/-! ### The composed system -/

/-- The manager, the server's registry, and the commands the server has processed. -/
structure Membership where
  /-- The client's end. -/
  manager : SubscriptionManager
  /-- The server's end. -/
  registry : TopicRegistry
  /-- The calls whose commands the server has processed. -/
  processed : List ℕ

/-- Who moves. -/
inductive MembershipAction
  /-- The application calls `subscribe`. -/
  | subscribe (topic : TopicName) (onGap : Bool)
  /-- The application calls `unsubscribe`. -/
  | unsubscribe (topic : TopicName)
  /-- An update arrives. -/
  | update (topic : TopicName) (order : ℕ)
  /-- A command is emitted. -/
  | emit (i : ℕ)
  /-- The server processes a command; the frame's order is the builder's choice. -/
  | process (i order : ℕ)
  /-- The answer of a processed command arrives. -/
  | settle (i : ℕ)
  /-- The call behind an answered command goes on. -/
  | resume (i : ℕ)
  /-- A gap observer returned or threw. -/
  | observed (i : ℕ)
  /-- A decode returned or threw. -/
  | decoded (i : ℕ) (ok : Bool)
  /-- An update handler returned or threw. -/
  | handled (i : ℕ) (ok : Bool)

namespace Membership

/-- A `subscribe` or `unsubscribe` of the topic has not returned. -/
def calling (topic : TopicName) (s : Membership) : Bool :=
  s.manager.tasks.any fun k => k.callOf.any fun x => x.2 = topic

variable (policy : SubscribePolicy) (limit : ℕ) (conn : ConnectionId)

/-- One step. -/
def step (s : Membership) : MembershipAction → Option Membership
  | .subscribe topic onGap =>
      if s.calling topic then none
      else (s.manager.step (.subscribe topic onGap)).map fun m => { s with manager := m }
  | .unsubscribe topic =>
      if s.calling topic then none
      else (s.manager.step (.unsubscribe topic)).map fun m => { s with manager := m }
  | .update topic order =>
      (s.manager.step (.update s.manager.client topic order)).map fun m => { s with manager := m }
  | .emit i => (s.manager.step (.emit i)).map fun m => { s with manager := m }
  | .process i order =>
      match s.manager.tasks[i]? with
      | none => none
      | some k =>
          match k.phase, k.commandId with
          | some (.emitted _), some id =>
              if i ∈ s.processed then none
              else
                match PubsubCommands.answer policy limit conn ⟨id, order, []⟩ s.registry with
                | some (.ok, r) => some { s with registry := r, processed := i :: s.processed }
                | _ => none
          | _, _ => none
  | .settle i =>
      if i ∈ s.processed then
        (s.manager.step (.settle i .acknowledged)).map fun m => { s with manager := m }
      else none
  | .resume i => (s.manager.step (.resume i)).map fun m => { s with manager := m }
  | .observed i => (s.manager.step (.observed i)).map fun m => { s with manager := m }
  | .decoded i ok => (s.manager.step (.decoded i ok)).map fun m => { s with manager := m }
  | .handled i ok => (s.manager.step (.handled i ok)).map fun m => { s with manager := m }

/-- The name is in the manager's map. -/
def desired (s : Membership) (t : TopicName) : Bool := (s.manager.entries.lookup t).isSome

/-- A name of the topic is in the manager's map. -/
def wanted (s : Membership) (topic : Topic) : Bool :=
  s.manager.entries.keys.any fun t => t.topic = topic

/-- The names in use: those in the map, and those a call runs for. -/
def names (s : Membership) : List TopicName :=
  s.manager.entries.keys ++ s.manager.tasks.filterMap fun k => k.callOf.map Prod.snd

/-- An `unsub/` of the topic is still ahead of the server. -/
def Unsubscribing (s : Membership) (topic : Topic) : Prop :=
  ∃ j < s.manager.tasks.length, j ∉ s.processed ∧
    ∃ x ∈ (s.manager.tasks[j]?).bind Task.callOf, x.1 = false ∧ x.2.topic = topic

instance (s : Membership) (topic : Topic) : Decidable (s.Unsubscribing topic) :=
  inferInstanceAs (Decidable (∃ j < s.manager.tasks.length, _ ∧ ∃ x ∈ _, _))

/-- The condition on a step: the server processes a resync while its topic is wanted, or
ahead of an `unsub/` of it; and a name is subscribed while no other name of its topic is in
use. -/
def Orderly (s : Membership) : MembershipAction → Prop
  | .process i _ =>
      ∀ k ∈ s.manager.tasks[i]?, ∀ t ∈ k.resyncOf,
        s.wanted t.topic = true ∨ s.Unsubscribing t.topic
  | .subscribe t _ => ∀ t' ∈ s.names, t'.topic = t.topic → t' = t
  | _ => True

instance (s : Membership) (a : MembershipAction) : Decidable (s.Orderly a) :=
  match a with
  | .process i _ =>
      inferInstanceAs (Decidable (∀ k ∈ s.manager.tasks[i]?, ∀ t ∈ k.resyncOf,
        s.wanted t.topic = true ∨ s.Unsubscribing t.topic))
  | .subscribe t _ => inferInstanceAs (Decidable (∀ t' ∈ s.names, t'.topic = t.topic → t' = t))
  | .unsubscribe _ | .update _ _ | .emit _ | .settle _ | .resume _ | .observed _
  | .decoded _ _ | .handled _ _ => isTrue trivial

/-- No command is in flight: every command issued has its answer. -/
def Quiet (s : Membership) : Prop :=
  ∀ k ∈ s.manager.tasks, ∀ p, k.phase = some p → ∃ c o, p = .settled c o

/-- The two ends agree: the topics registered are those of the names in the map. -/
def Agree (s : Membership) : Prop :=
  ∀ topic, s.wanted topic = true ↔ s.registry.Registered conn topic

/-- No two names in use are of one topic. -/
def Sole (s : Membership) : Prop :=
  ∀ t ∈ s.names, ∀ t' ∈ s.names, t.topic = t'.topic → t = t'

/-- A call of the topic is still ahead of the server. -/
def Open (s : Membership) (topic : Topic) : Prop :=
  ∃ i k b t, s.manager.tasks[i]? = some k ∧ k.callOf = some (b, t) ∧ t.topic = topic ∧
    i ∉ s.processed

/-- The two ends agree on every topic no call is open for. -/
def Consistent (s : Membership) : Prop :=
  ∀ topic, ¬ s.Open topic → (s.wanted topic = true ↔ s.registry.Registered conn topic)

/-! ### Names and topics -/

theorem mem_keys_iff {s : Membership} {t : TopicName} :
    t ∈ s.manager.entries.keys ↔ s.desired t = true := by
  rw [desired, AList.lookup_isSome, AList.mem_keys]

theorem wanted_iff {s : Membership} {topic : Topic} :
    s.wanted topic = true ↔ ∃ t, s.desired t = true ∧ t.topic = topic := by
  simp only [wanted, List.any_eq_true, decide_eq_true_eq, mem_keys_iff]

theorem mem_names_iff {s : Membership} {t : TopicName} :
    t ∈ s.names ↔ s.desired t = true ∨ ∃ k ∈ s.manager.tasks, ∃ b, k.callOf = some (b, t) := by
  simp only [names, List.mem_append, mem_keys_iff, List.mem_filterMap, Option.map_eq_some_iff,
    Prod.exists, exists_eq_right]

/-- The map is what it was on every name of the topic. -/
theorem wanted_congr {s s' : Membership} {topic : Topic}
    (h : ∀ t, t.topic = topic → s'.desired t = s.desired t) : s'.wanted topic = s.wanted topic := by
  rw [Bool.eq_iff_iff, wanted_iff, wanted_iff]
  constructor
  · rintro ⟨t, hd, rfl⟩
    exact ⟨t, by rw [← h t rfl]; exact hd, rfl⟩
  · rintro ⟨t, hd, rfl⟩
    exact ⟨t, by rw [h t rfl]; exact hd, rfl⟩

/-! ### What the calls rely on -/

/-- What holds in every run. -/
structure Books (s : Membership) : Prop where
  /-- The connection is up. -/
  up : (s.manager.peers s.manager.client).released = false
  /-- While a call runs, its topic is where the call left it. -/
  calls : ∀ k ∈ s.manager.tasks, ∀ b t, k.callOf = some (b, t) → s.desired t = b
  /-- A topic has one call at a time. -/
  alone : ∀ (i j : ℕ) (k k' : Task) (b b' : Bool) (t : TopicName), s.manager.tasks[i]? = some k →
    s.manager.tasks[j]? = some k' → k.callOf = some (b, t) → k'.callOf = some (b', t) →
    i = j
  /-- Processed is what was issued. -/
  known : ∀ i ∈ s.processed, i < s.manager.tasks.length
  /-- Answers are `Ok` and follow the processing. -/
  answered : ∀ (i : ℕ) (k : Task) (c : ClientId) (o : Outcome), s.manager.tasks[i]? = some k →
    k.phase = some (.settled c o) → o = .acknowledged ∧ i ∈ s.processed

/-- A call that moves on, with map, connection and server as they are. -/
structure Moves (s s' : Membership) (i : ℕ) : Prop where
  /-- The connection. -/
  peers : (s'.manager.peers s'.manager.client).released =
    (s.manager.peers s.manager.client).released
  /-- The map. -/
  entries : s'.manager.entries = s.manager.entries
  /-- The server. -/
  registry : s'.registry = s.registry
  /-- What it processed. -/
  processed : s'.processed = s.processed
  /-- The call stays what it is, or is done and was processed. -/
  tasks : ∃ k k', s.manager.tasks[i]? = some k ∧ s'.manager.tasks = s.manager.tasks.set i k' ∧
    (k'.callOf = k.callOf ∨ (k'.callOf = none ∧ i ∈ s.processed)) ∧
    ∀ c o, k'.phase = some (.settled c o) → o = .acknowledged ∧ i ∈ s.processed

/-- The call behind an index after a move. -/
theorem getElem?_set_cases {l : List Task} {i j : ℕ} {k k' x : Task} (hk : l[i]? = some k)
    (hx : (l.set i k')[j]? = some x) : (j = i ∧ x = k') ∨ (j ≠ i ∧ l[j]? = some x) := by
  by_cases hji : j = i
  · subst hji
    obtain ⟨hlt, _⟩ := List.getElem?_eq_some_iff.mp hk
    rw [List.getElem?_set_self hlt] at hx
    exact Or.inl ⟨rfl, (Option.some.inj hx).symm⟩
  · rw [List.getElem?_set_ne (Ne.symm hji)] at hx
    exact Or.inr ⟨hji, hx⟩

/-- A call after a move was that call before. -/
theorem Moves.callOf {s s' : Membership} {i j : ℕ} {x : Task} {b : Bool} {t : TopicName}
    (h : Moves s s' i) (hx : s'.manager.tasks[j]? = some x) (hc : x.callOf = some (b, t)) :
    ∃ y, s.manager.tasks[j]? = some y ∧ y.callOf = some (b, t) := by
  obtain ⟨k, k', hk, htasks, hcall, _⟩ := h.tasks
  rw [htasks] at hx
  rcases getElem?_set_cases hk hx with ⟨rfl, rfl⟩ | ⟨_, hx⟩
  · rcases hcall with hcall | ⟨hcall, _⟩
    · exact ⟨k, hk, by rw [← hcall]; exact hc⟩
    · rw [hcall] at hc
      cases hc
  · exact ⟨x, hx, hc⟩

theorem Books.move {s s' : Membership} {i : ℕ} (h : Books s) (hm : Moves s s' i) : Books s' := by
  have hdesired : ∀ t, s'.desired t = s.desired t := by
    intro t
    rw [desired, desired, hm.entries]
  refine ⟨hm.peers.trans h.up, ?_, ?_, ?_, ?_⟩
  · intro x hx b t hc
    obtain ⟨j, hj⟩ := List.mem_iff_getElem?.mp hx
    obtain ⟨y, hy, hyc⟩ := hm.callOf hj hc
    rw [hdesired]
    exact h.calls y (List.mem_of_getElem? hy) b t hyc
  · intro j j' x x' b b' t hx hx' hc hc'
    obtain ⟨y, hy, hyc⟩ := hm.callOf hx hc
    obtain ⟨y', hy', hyc'⟩ := hm.callOf hx' hc'
    exact h.alone j j' y y' b b' t hy hy' hyc hyc'
  · intro j hj
    obtain ⟨k, k', _, htasks, _⟩ := hm.tasks
    rw [hm.processed] at hj
    rw [htasks, List.length_set]
    exact h.known j hj
  · intro j x c o hx hp
    obtain ⟨k, k', hk, htasks, _, hans⟩ := hm.tasks
    rw [htasks] at hx
    rw [hm.processed]
    rcases getElem?_set_cases hk hx with ⟨rfl, rfl⟩ | ⟨_, hx⟩
    · exact hans c o hp
    · exact h.answered j x c o hx hp

theorem Moves.open_iff {s s' : Membership} {i : ℕ} (hm : Moves s s' i) (topic : Topic) :
    s'.Open topic ↔ s.Open topic := by
  constructor
  · rintro ⟨j, x, b, t, hx, hc, ht, hj⟩
    obtain ⟨y, hy, hyc⟩ := hm.callOf hx hc
    exact ⟨j, y, b, t, hy, hyc, ht, by rw [← hm.processed]; exact hj⟩
  · rintro ⟨j, x, b, t, hx, hc, ht, hj⟩
    obtain ⟨k, k', hk, htasks, hcall, _⟩ := hm.tasks
    by_cases hji : j = i
    · subst hji
      obtain rfl : x = k := by rw [hk] at hx; exact (Option.some.inj hx).symm
      obtain ⟨hlt, _⟩ := List.getElem?_eq_some_iff.mp hk
      rcases hcall with hcall | ⟨_, hproc⟩
      · refine ⟨j, k', b, t, ?_, hcall.trans hc, ht, by rw [hm.processed]; exact hj⟩
        rw [htasks, List.getElem?_set_self hlt]
      · exact absurd hproc hj
    · refine ⟨j, x, b, t, ?_, hc, ht, by rw [hm.processed]; exact hj⟩
      rw [htasks, List.getElem?_set_ne (Ne.symm hji)]
      exact hx

/-- No name comes into use. -/
theorem Moves.names {s s' : Membership} {i : ℕ} (hm : Moves s s' i) {t : TopicName}
    (ht : t ∈ s'.names) : t ∈ s.names := by
  rw [mem_names_iff] at ht ⊢
  rcases ht with hd | ⟨x, hx, b, hc⟩
  · left
    rw [desired, hm.entries] at hd
    exact hd
  · obtain ⟨j, hj⟩ := List.mem_iff_getElem?.mp hx
    obtain ⟨y, hy, hyc⟩ := hm.callOf hj hc
    exact Or.inr ⟨y, List.mem_of_getElem? hy, b, hyc⟩

variable {policy : SubscribePolicy} {limit : ℕ} {conn : ConnectionId}

theorem Moves.consistent {s s' : Membership} {i : ℕ} (hm : Moves s s' i)
    (h : s.Consistent conn) : s'.Consistent conn := by
  intro topic ht
  rw [hm.open_iff] at ht
  rw [wanted, hm.entries, hm.registry]
  exact h topic ht

/-! ### The moves of a call -/

theorem moves_emit {s : Membership} (h : Books s) {i : ℕ} {k : Task}
    (hk : s.manager.tasks[i]? = some k) (hp : k.phase = some .building) :
    Moves s { s with manager := s.manager.emit i k } i := by
  have hemit : s.manager.emit i k =
      s.manager.setTask i (k.setPhase (.emitted s.manager.client)) := by
    rw [SubscriptionManager.emit, if_neg]
    rw [h.up]
    simp
  rw [hemit]
  refine ⟨rfl, rfl, rfl, rfl, k, _, hk, rfl, Or.inl (by simp), ?_⟩
  intro c o hc
  rw [Task.phase_setPhase hp] at hc
  cases hc

theorem moves_settle {s : Membership} {i : ℕ} {k : Task} {c : ClientId}
    (hk : s.manager.tasks[i]? = some k) (hp : k.phase = some (.emitted c))
    (hproc : i ∈ s.processed) :
    Moves s { s with manager := s.manager.settle i k c .acknowledged } i := by
  rw [SubscriptionManager.settle_eq]
  refine ⟨rfl, rfl, rfl, rfl, k, _, hk, rfl, Or.inl (by simp), ?_⟩
  intro c' o hc
  rw [Task.phase_setPhase hp] at hc
  simp only [Option.some.injEq, Phase.settled.injEq] at hc
  exact ⟨hc.2.symm, hproc⟩

/-- Every answer is `Ok`, so the code behind it leaves the map alone. -/
theorem moves_resume {s : Membership} (h : Books s) {i : ℕ} {k : Task} {m : SubscriptionManager}
    (hk : s.manager.tasks[i]? = some k) (hr : s.manager.resume i k = some m) :
    Moves s { s with manager := m } i := by
  rcases SubscriptionManager.resume_cases hr with ⟨t, e, c, o, rfl, rfl⟩ | ⟨t, c, o, rfl, rfl⟩ |
    ⟨g, t, e, c, o, rfl, rfl⟩ | ⟨via, t, e, n, c, o, rfl, rfl⟩
  · obtain ⟨rfl, hproc⟩ := h.answered i _ c o hk rfl
    exact ⟨rfl, rfl, rfl, rfl, _, .finished, hk, rfl, Or.inr ⟨rfl, hproc⟩, by simp [Task.phase]⟩
  · obtain ⟨rfl, hproc⟩ := h.answered i _ c o hk rfl
    exact ⟨rfl, rfl, rfl, rfl, _, .finished, hk, rfl, Or.inr ⟨rfl, hproc⟩, by simp [Task.phase]⟩
  · obtain ⟨rfl, hproc⟩ := h.answered i _ c o hk rfl
    exact ⟨rfl, rfl, rfl, rfl, _, _, hk, rfl, Or.inl rfl, by simp [Task.phase]⟩
  · refine ⟨rfl, rfl, rfl, rfl, _, _, hk, rfl, Or.inl ?_, ?_⟩
    · unfold SubscriptionManager.deliver
      split
      · rfl
      · rfl
    · unfold SubscriptionManager.deliver
      split
      · simp [Task.phase]
      · simp [Task.phase]

theorem moves_proceeds {s : Membership} {i : ℕ} {m : SubscriptionManager}
    (h : SubscriptionManager.Proceeds s.manager m i) : Moves s { s with manager := m } i := by
  obtain ⟨k, k', hk, htasks, hp, hp', _⟩ := h.tasks
  refine ⟨?_, h.entries, rfl, rfl, k, k', hk, htasks, Or.inl ?_, ?_⟩
  · show (m.peers m.client).released = _
    rw [h.peers, h.client]
  · rw [Task.callOf_eq_none hp, Task.callOf_eq_none hp']
  · intro c o hc
    rw [hp'] at hc
    cases hc

/-! ### New calls -/

/-- A new task behind the others. -/
structure Adds (s s' : Membership) (k : Task) : Prop where
  /-- The connection. -/
  peers : s'.manager.peers s'.manager.client = s.manager.peers s.manager.client
  /-- The server. -/
  registry : s'.registry = s.registry
  /-- What it processed. -/
  processed : s'.processed = s.processed
  /-- The tasks. -/
  tasks : s'.manager.tasks = s.manager.tasks ++ [k]
  /-- It has no answer yet. -/
  unanswered : ∀ c o, k.phase ≠ some (.settled c o)
  /-- Its call is the topic's only one, and leaves the other topics alone. -/
  desired : ∀ t, (∀ b, k.callOf ≠ some (b, t)) → s'.desired t = s.desired t
  /-- Its topic is where it put it. -/
  called : ∀ b t, k.callOf = some (b, t) → s'.desired t = b ∧
    ∀ x ∈ s.manager.tasks, ∀ b', x.callOf ≠ some (b', t)

theorem Adds.getElem? {s s' : Membership} {k x : Task} {j : ℕ} (h : Adds s s' k)
    (hx : s'.manager.tasks[j]? = some x) :
    s.manager.tasks[j]? = some x ∨ (j = s.manager.tasks.length ∧ x = k) := by
  rw [h.tasks] at hx
  rcases Nat.lt_trichotomy j s.manager.tasks.length with hlt | rfl | hgt
  · rw [List.getElem?_append_left hlt] at hx
    exact Or.inl hx
  · simp only [List.getElem?_concat_length, Option.some.injEq] at hx
    exact Or.inr ⟨rfl, hx.symm⟩
  · rw [List.getElem?_eq_none (by simp; omega)] at hx
    cases hx

theorem Books.add {s s' : Membership} {k : Task} (h : Books s) (ha : Adds s s' k) : Books s' := by
  refine ⟨by rw [ha.peers]; exact h.up, ?_, ?_, ?_, ?_⟩
  · intro x hx b t hc
    rw [ha.tasks, List.mem_append, List.mem_singleton] at hx
    rcases hx with hx | rfl
    · rw [ha.desired]
      · exact h.calls x hx b t hc
      · exact fun b' hb' => (ha.called b' t hb').2 x hx b hc
    · exact (ha.called b t hc).1
  · intro i j x y b b' t hx hy hc hc'
    rcases ha.getElem? hx with hx | ⟨rfl, rfl⟩
    · rcases ha.getElem? hy with hy | ⟨rfl, rfl⟩
      · exact h.alone i j x y b b' t hx hy hc hc'
      · exact absurd hc ((ha.called b' t hc').2 x (List.mem_of_getElem? hx) b)
    · rcases ha.getElem? hy with hy | ⟨rfl, rfl⟩
      · exact absurd hc' ((ha.called b t hc).2 y (List.mem_of_getElem? hy) b')
      · rfl
  · intro i hi
    rw [ha.processed] at hi
    rw [ha.tasks, List.length_append]
    have := h.known i hi
    omega
  · intro i x c o hx hp
    rw [ha.processed]
    rcases ha.getElem? hx with hx | ⟨rfl, rfl⟩
    · exact h.answered i x c o hx hp
    · exact absurd hp (ha.unanswered c o)

/-- A new call is open; the other topics are as open as they were. -/
theorem Adds.consistent {s s' : Membership} {k : Task} (hb : Books s) (ha : Adds s s' k)
    (h : s.Consistent conn) : s'.Consistent conn := by
  intro topic ht
  have hnot : ∀ t, t.topic = topic → ∀ b, k.callOf ≠ some (b, t) := by
    intro t htopic b hc
    refine ht ⟨s.manager.tasks.length, k, b, t, by simp [ha.tasks], hc, htopic, ?_⟩
    intro hproc
    rw [ha.processed] at hproc
    exact absurd (hb.known _ hproc) (lt_irrefl _)
  have hclosed : ¬ s.Open topic := by
    rintro ⟨i, x, b, t, hx, hc, htopic, hi⟩
    refine ht ⟨i, x, b, t, ?_, hc, htopic, by rw [ha.processed]; exact hi⟩
    rw [ha.tasks]
    exact List.getElem?_append_left (List.getElem?_eq_some_iff.mp hx).1 ▸ hx
  rw [wanted_congr fun t htopic => ha.desired t (hnot t htopic), ha.registry]
  exact h topic hclosed

/-- The names in use are those before, and the one of the new call. -/
theorem Adds.names {s s' : Membership} {k : Task} (ha : Adds s s' k) {t : TopicName}
    (ht : t ∈ s'.names) : t ∈ s.names ∨ ∃ b, k.callOf = some (b, t) := by
  by_cases hcall : ∃ b, k.callOf = some (b, t)
  · exact Or.inr hcall
  · left
    have hnot : ∀ b, k.callOf ≠ some (b, t) := fun b hc => hcall ⟨b, hc⟩
    rw [mem_names_iff] at ht ⊢
    rw [ha.desired t hnot, ha.tasks] at ht
    rcases ht with hd | ⟨x, hx, b, hc⟩
    · exact Or.inl hd
    · rcases List.mem_append.mp hx with hx | hx
      · exact Or.inr ⟨x, hx, b, hc⟩
      · rw [List.mem_singleton.mp hx] at hc
        exact absurd hc (hnot b)

/-- A call for a name that is alone on its topic leaves every name so. -/
theorem Adds.sole {s s' : Membership} {k : Task} (ha : Adds s s' k) (h : s.Sole)
    (hk : ∀ b t, k.callOf = some (b, t) → ∀ t' ∈ s.names, t'.topic = t.topic → t' = t) :
    s'.Sole := by
  intro t ht t' ht' htopic
  rcases ha.names ht with ht | ⟨b, hc⟩
  · rcases ha.names ht' with ht' | ⟨b', hc'⟩
    · exact h t ht t' ht' htopic
    · exact hk b' t' hc' t ht htopic
  · rcases ha.names ht' with ht' | ⟨b', hc'⟩
    · exact (hk b t hc t' ht' htopic.symm).symm
    · rw [hc] at hc'
      exact congrArg Prod.snd (Option.some.inj hc')

theorem not_callOf_of_calling {s : Membership} {topic : TopicName} (h : s.calling topic = false) :
    ∀ x ∈ s.manager.tasks, ∀ b, x.callOf ≠ some (b, topic) := by
  intro x hx b hc
  simp only [calling, List.any_eq_false] at h
  have := h x hx
  simp [hc] at this

/-- `subscribe` throws, or adds its call. -/
theorem adds_subscribe {s : Membership} {topic : TopicName} {onGap : Bool}
    (hc : s.calling topic = false) :
    s.manager.subscribe topic onGap = s.manager ∨
      ∃ k, Adds s { s with manager := s.manager.subscribe topic onGap } k ∧
        k.callOf = some (true, topic) := by
  unfold SubscriptionManager.subscribe
  split
  · exact Or.inl rfl
  · right
    refine ⟨.subscribe topic ⟨s.manager.nextEntry⟩ .building, ⟨rfl, rfl, rfl, rfl,
      by simp [Task.phase], ?_, ?_⟩, rfl⟩
    · intro t ht
      have hne : t ≠ topic := by
        rintro rfl
        exact ht true rfl
      simp [desired, hne]
    · intro b t hcall
      simp only [Task.callOf, Option.some.injEq, Prod.mk.injEq] at hcall
      obtain ⟨rfl, rfl⟩ := hcall
      exact ⟨by simp [desired], not_callOf_of_calling hc⟩

/-- `unsubscribe` returns at once, or adds its call. -/
theorem adds_unsubscribe {s : Membership} {topic : TopicName} (hc : s.calling topic = false) :
    s.manager.unsubscribe topic = s.manager ∨
      ∃ k, Adds s { s with manager := s.manager.unsubscribe topic } k ∧
        k.callOf = some (false, topic) ∧ s.desired topic = true := by
  unfold SubscriptionManager.unsubscribe
  split
  · exact Or.inl rfl
  · next e he =>
    right
    have hlook := SubscriptionManager.lookup_delete topic
    have hb := SubscriptionManager.sameBooks_delete topic .unsubscribed s.manager
    refine ⟨.unsubscribe topic .building, ⟨?_, rfl, rfl, ?_, by simp [Task.phase], ?_, ?_⟩, rfl,
      by simp [desired, he]⟩
    · show (s.manager.delete topic .unsubscribed).peers (s.manager.delete topic .unsubscribed).client = _
      rw [hb.client]
      unfold SubscriptionManager.delete
      split
      · rfl
      · rfl
    · show (s.manager.delete topic .unsubscribed).tasks ++ _ = _
      rw [hb.tasks]
    · intro t ht
      have hne : t ≠ topic := by
        rintro rfl
        exact ht false rfl
      simp [desired, SubscriptionManager.spawn, hlook, hne]
    · intro b t hcall
      simp only [Task.callOf, Option.some.injEq, Prod.mk.injEq] at hcall
      obtain ⟨rfl, rfl⟩ := hcall
      exact ⟨by simp [desired, SubscriptionManager.spawn, hlook], not_callOf_of_calling hc⟩

/-- An update is dropped, or adds its delivery. -/
theorem adds_update {s : Membership} {via : ClientId} {topic : TopicName} {order : ℕ} :
    s.manager.update via topic order = s.manager ∨
      ∃ k, Adds s { s with manager := s.manager.update via topic order } k ∧ k.callOf = none := by
  have hspawn : ∀ k : Task, k.callOf = none → (∀ c o, k.phase ≠ some (.settled c o)) →
      Adds s { s with manager := s.manager.spawn k } k := by
    intro k hcall hphase
    refine ⟨rfl, rfl, rfl, rfl, hphase, fun _ _ => rfl, ?_⟩
    intro b t hc
    rw [hcall] at hc
    cases hc
  unfold SubscriptionManager.update
  split
  · exact Or.inl rfl
  · next e he =>
    split
    · exact Or.inl rfl
    · split
      · exact Or.inr ⟨_, hspawn _ rfl (by simp [Task.phase]), rfl⟩
      · exact Or.inr ⟨_, hspawn _ rfl (by simp [Task.phase]), rfl⟩
    · unfold SubscriptionManager.deliver
      rw [if_pos he]
      exact Or.inr ⟨_, hspawn _ rfl (by simp [Task.phase]), rfl⟩

/-! ### The server processes a command -/

/-- What a processing step found and did. -/
theorem process_cases {s s' : Membership} {i order : ℕ}
    (h : s.step policy limit conn (.process i order) = some s') :
    ∃ k c id r, s.manager.tasks[i]? = some k ∧ k.phase = some (.emitted c) ∧
      k.commandId = some id ∧ i ∉ s.processed ∧
      PubsubCommands.answer policy limit conn ⟨id, order, []⟩ s.registry = some (.ok, r) ∧
      s' = { s with registry := r, processed := i :: s.processed } := by
  simp only [step] at h
  split at h
  · cases h
  · next k hk =>
    split at h
    · next c id hp hid =>
      split at h
      · cases h
      · next hproc =>
        split at h
        · next r hr => exact ⟨k, c, id, r, hk, hp, hid, hproc, hr, (Option.some.inj h).symm⟩
        · cases h
    · cases h

theorem Books.process {s : Membership} (h : Books s) {i : ℕ} {k : Task} {r : TopicRegistry}
    (hk : s.manager.tasks[i]? = some k) :
    Books { s with registry := r, processed := i :: s.processed } := by
  refine ⟨h.up, h.calls, h.alone, ?_, ?_⟩
  · intro j hj
    rcases List.mem_cons.mp hj with rfl | hj
    · exact (List.getElem?_eq_some_iff.mp hk).1
    · exact h.known j hj
  · intro j x c o hx hp
    obtain ⟨ho, hj⟩ := h.answered j x c o hx hp
    exact ⟨ho, List.mem_cons_of_mem i hj⟩

/-- Processing closes at most the call that was processed. -/
theorem open_process {s : Membership} {i : ℕ} {k : Task} {r : TopicRegistry} {topic : Topic}
    (hk : s.manager.tasks[i]? = some k)
    (hnot : ∀ b t, k.callOf = some (b, t) → t.topic ≠ topic) :
    Open { s with registry := r, processed := i :: s.processed } topic ↔ s.Open topic := by
  constructor
  · rintro ⟨j, x, b, t, hx, hc, ht, hj⟩
    exact ⟨j, x, b, t, hx, hc, ht, fun hp => hj (List.mem_cons_of_mem i hp)⟩
  · rintro ⟨j, x, b, t, hx, hc, ht, hj⟩
    refine ⟨j, x, b, t, hx, hc, ht, ?_⟩
    intro hp
    rcases List.mem_cons.mp hp with rfl | hp
    · -- the processed call is of another topic
      have hx' : s.manager.tasks[j]? = some x := hx
      rw [hk] at hx'
      obtain rfl := Option.some.inj hx'
      exact hnot b t hc ht
    · exact hj hp

/-- While a call runs and its name is alone on its topic, the topic is where the call left
it. -/
theorem Books.wanted_of_call {s : Membership} (hb : Books s) (hs : s.Sole) {k : Task} {b : Bool}
    {t : TopicName} (hk : k ∈ s.manager.tasks) (hc : k.callOf = some (b, t)) :
    s.wanted t.topic = b := by
  have hd := hb.calls k hk b t hc
  have hname : t ∈ s.names := mem_names_iff.mpr (Or.inr ⟨k, hk, b, hc⟩)
  rw [← hd, Bool.eq_iff_iff, wanted_iff]
  constructor
  · rintro ⟨t', hd', htopic⟩
    rw [← hs t' (mem_names_iff.mpr (Or.inl hd')) t hname htopic]
    exact hd'
  · intro ht
    exact ⟨t, ht, rfl⟩

/-- A processed call leaves the two ends in agreement on its topic. -/
theorem consistent_of_call {s : Membership} (hb : Books s) (hs : s.Sole) (h : s.Consistent conn)
    {i : ℕ} {k : Task} {r : TopicRegistry} {b : Bool} {t : TopicName}
    (hk : s.manager.tasks[i]? = some k) (hc : k.callOf = some (b, t))
    (hown : r.Registered conn t.topic ↔ b = true)
    (hother : ∀ topic, topic ≠ t.topic →
      (r.Registered conn topic ↔ s.registry.Registered conn topic)) :
    Consistent conn { s with registry := r, processed := i :: s.processed } := by
  intro topic ht
  by_cases htt : topic = t.topic
  · subst htt
    show s.wanted t.topic = true ↔ r.Registered conn t.topic
    rw [hb.wanted_of_call hs (List.mem_of_getElem? hk) hc, hown]
  · have hnot : ∀ b' t', k.callOf = some (b', t') → t'.topic ≠ topic := by
      intro b' t' hb' htopic
      rw [hc] at hb'
      obtain rfl := congrArg Prod.snd (Option.some.inj hb')
      exact htt htopic.symm
    rw [open_process hk hnot] at ht
    show s.wanted topic = true ↔ r.Registered conn topic
    rw [hother topic htt]
    exact h topic ht

/-- A processed resync leaves the two ends in agreement exactly when its topic is
wanted or about to be unsubscribed. -/
theorem consistent_of_resync {s : Membership} (hb : Books s) (h : s.Consistent conn) {i : ℕ}
    {k : Task} {r : TopicRegistry} {topic : Topic} (hk : s.manager.tasks[i]? = some k)
    (hc : k.callOf = none)
    (hreg : ∀ topic', r.Registered conn topic' ↔
      topic' = topic ∨ s.registry.Registered conn topic') :
    Consistent conn { s with registry := r, processed := i :: s.processed } ↔
      s.wanted topic = true ∨ s.Unsubscribing topic := by
  have hopen : ∀ topic', Open { s with registry := r, processed := i :: s.processed } topic' ↔
      s.Open topic' := fun topic' => open_process hk (by simp [hc])
  have hthere : r.Registered conn topic := (hreg topic).mpr (Or.inl rfl)
  constructor
  · intro hcons
    by_cases ho : s.Open topic
    · obtain ⟨j, x, b, t, hx, hxc, htopic, hj⟩ := ho
      cases b with
      | true =>
        -- a `subscribe` under way has its name in the map already
        have hd := hb.calls x (List.mem_of_getElem? hx) true t hxc
        exact Or.inl (wanted_iff.mpr ⟨t, hd, htopic⟩)
      | false =>
        refine Or.inr ⟨j, (List.getElem?_eq_some_iff.mp hx).1, hj, (false, t), ?_, rfl, htopic⟩
        rw [hx]
        exact hxc
    · have hagree := hcons topic (by rw [hopen]; exact ho)
      exact Or.inl (hagree.mpr hthere)
  · intro hor topic' ht'
    rw [hopen] at ht'
    show s.wanted topic' = true ↔ r.Registered conn topic'
    by_cases htt : topic' = topic
    · subst htt
      refine iff_of_true ?_ hthere
      rcases hor with hd | ⟨j, _, hj, ⟨b, t⟩, hcall, rfl, htopic⟩
      · exact hd
      · -- an `unsub/` ahead of the server is an open call
        obtain ⟨x, hx, hxc⟩ := Option.bind_eq_some_iff.mp hcall
        exact absurd ⟨j, x, false, t, hx, hxc, htopic, hj⟩ ht'
    · rw [hreg topic', h topic' ht']
      simp [htt]

/-- Whether a processing step keeps the agreement. -/
theorem consistent_process {s s' : Membership} (hb : Books s) (hs : s.Sole) (h : s.Consistent conn)
    {i order : ℕ} (hstep : s.step policy limit conn (.process i order) = some s') :
    s'.Consistent conn ↔ s.Orderly (.process i order) := by
  obtain ⟨k, c, id, r, hk, _, hid, _, hans, rfl⟩ := process_cases hstep
  have horderly : s.Orderly (.process i order) ↔
      ∀ t ∈ k.resyncOf, s.wanted t.topic = true ∨ s.Unsubscribing t.topic := by
    simp only [Orderly, hk, Option.mem_def, Option.some.injEq, forall_eq']
  rw [horderly]
  rcases Task.commandId_cases hid with ⟨t, hc, hr, rfl⟩ | ⟨t, hc, hr, rfl⟩ | ⟨t, hc, hr, rfl⟩
  · have hreg := PubsubCommands.answer_sub rfl hans
    refine iff_of_true (consistent_of_call hb hs h hk hc (by simp [hreg]) ?_) (by simp [hr])
    intro topic ht
    simp [hreg, ht]
  · have hreg := PubsubCommands.answer_unsub rfl hans
    refine iff_of_true (consistent_of_call hb hs h hk hc (by simp [hreg]) ?_) (by simp [hr])
    intro topic ht
    simp [hreg, ht]
  · rw [consistent_of_resync hb h hk hc (PubsubCommands.answer_sub rfl hans), hr]
    simp

/-! ### Whole runs -/

/-- What a step does: nothing, a new call, a move, or a command processed. -/
inductive Does (s : Membership) (a : MembershipAction) (s' : Membership) : Prop
  /-- Nothing. -/
  | rests (h : s' = s)
  /-- A call is made; but for a `subscribe` it is for a name in use, or for none. -/
  | adds (k : Task) (h : Adds s s' k) (hcall : ∀ b t, k.callOf = some (b, t) →
      t ∈ s.names ∨ ∃ onGap, a = .subscribe t onGap)
  /-- A call moves on. -/
  | moves (i : ℕ) (h : Moves s s' i) (ha : ∀ j order, a ≠ .process j order)
  /-- The server processes a command. -/
  | processes (i order : ℕ) (ha : a = .process i order)

theorem step_does {s s' : Membership} {a : MembershipAction} (hb : Books s)
    (hstep : s.step policy limit conn a = some s') : Does s a s' := by
  cases a with
  | subscribe topic onGap =>
    simp only [step] at hstep
    split at hstep
    · cases hstep
    · next hcalling =>
      obtain rfl := Option.some.inj hstep
      rcases adds_subscribe (by simpa using hcalling) with heq | ⟨k, hadds, hcall⟩
      · exact .rests (by rw [heq])
      · refine .adds k hadds ?_
        intro b t hc
        rw [hcall] at hc
        cases hc
        exact Or.inr ⟨onGap, rfl⟩
  | unsubscribe topic =>
    simp only [step] at hstep
    split at hstep
    · cases hstep
    · next hcalling =>
      obtain rfl := Option.some.inj hstep
      rcases adds_unsubscribe (by simpa using hcalling) with heq | ⟨k, hadds, hcall, hd⟩
      · exact .rests (by rw [heq])
      · refine .adds k hadds ?_
        intro b t hc
        rw [hcall] at hc
        cases hc
        exact Or.inl (mem_names_iff.mpr (Or.inl hd))
  | update topic order =>
    obtain ⟨m, hm, rfl⟩ := Option.map_eq_some_iff.mp hstep
    cases SubscriptionManager.step_effect hm with
    | update _ _ hc =>
      rcases adds_update (s := s) with heq | ⟨k, hadds, hcall⟩
      · exact .rests (by rw [heq])
      · refine .adds k hadds ?_
        intro b t hc
        rw [hcall] at hc
        cases hc
  | emit i =>
    obtain ⟨m, hm, rfl⟩ := Option.map_eq_some_iff.mp hstep
    cases SubscriptionManager.step_effect hm with
    | emit hk hp => exact .moves i (moves_emit hb hk hp) (by simp)
  | process i order => exact .processes i order rfl
  | settle i =>
    simp only [step] at hstep
    split at hstep
    · next hproc =>
      obtain ⟨m, hm, rfl⟩ := Option.map_eq_some_iff.mp hstep
      cases SubscriptionManager.step_effect hm with
      | settle o hk hp => exact .moves i (moves_settle hk hp hproc) (by simp)
    · cases hstep
  | resume i =>
    obtain ⟨m, hm, rfl⟩ := Option.map_eq_some_iff.mp hstep
    cases SubscriptionManager.step_effect hm with
    | resume hk hr => exact .moves i (moves_resume hb hk hr) (by simp)
  | observed i =>
    obtain ⟨m, hm, rfl⟩ := Option.map_eq_some_iff.mp hstep
    cases SubscriptionManager.step_effect hm with
    | observed hp => exact .moves i (moves_proceeds hp) (by simp)
  | decoded i ok =>
    obtain ⟨m, hm, rfl⟩ := Option.map_eq_some_iff.mp hstep
    cases SubscriptionManager.step_effect hm with
    | decoded hp => exact .moves i (moves_proceeds hp) (by simp)
  | handled i ok =>
    obtain ⟨m, hm, rfl⟩ := Option.map_eq_some_iff.mp hstep
    cases SubscriptionManager.step_effect hm with
    | handled hp => exact .moves i (moves_proceeds hp) (by simp)

/-- Every step keeps the books. -/
theorem books_step {s s' : Membership} {a : MembershipAction} (hb : Books s)
    (hstep : s.step policy limit conn a = some s') : Books s' := by
  cases step_does hb hstep with
  | rests h => rw [h]; exact hb
  | adds k h => exact hb.add h
  | moves i h => exact hb.move h
  | processes i order ha =>
    subst ha
    obtain ⟨k, c, id, r, hk, _, _, _, _, rfl⟩ := process_cases hstep
    exact hb.process hk

/-- An orderly step keeps every name alone on its topic. -/
theorem sole_step {s s' : Membership} {a : MembershipAction} (hb : Books s) (hs : s.Sole)
    (ho : s.Orderly a) (hstep : s.step policy limit conn a = some s') : s'.Sole := by
  cases step_does hb hstep with
  | rests h => rw [h]; exact hs
  | adds k h hcall =>
    refine h.sole hs ?_
    intro b t hc t' ht' htopic
    rcases hcall b t hc with ht | ⟨onGap, rfl⟩
    · exact hs t' ht' t ht htopic
    · exact ho t' ht' htopic
  | moves i h => exact fun t ht t' ht' htopic => hs t (h.names ht) t' (h.names ht') htopic
  | processes i order ha =>
    subst ha
    obtain ⟨k, c, id, r, _, _, _, _, _, rfl⟩ := process_cases hstep
    exact hs

/-- An orderly step keeps the agreement. -/
theorem consistent_step {s s' : Membership} {a : MembershipAction} (hb : Books s) (hs : s.Sole)
    (h : s.Consistent conn) (ho : s.Orderly a) (hstep : s.step policy limit conn a = some s') :
    s'.Consistent conn := by
  cases step_does hb hstep with
  | rests heq => rw [heq]; exact h
  | adds k ha => exact ha.consistent hb h
  | moves i hm => exact hm.consistent h
  | processes i order ha =>
    subst ha
    exact (consistent_process hb hs h hstep).mpr ho

/-- A new manager and a server that has nothing registered for the connection. -/
theorem books_new {peers : ClientId → Peer} {c : ClientId} {m₀ : SubscriptionManager}
    (hnew : SubscriptionManager.new peers c = .ok m₀) (r₀ : TopicRegistry) :
    Books ⟨m₀, r₀, []⟩ ∧ m₀.entries = ∅ ∧ m₀.tasks = [] := by
  obtain ⟨p, hserve, rfl⟩ := SubscriptionManager.new_cases hnew
  refine ⟨⟨?_, ?_, ?_, ?_, ?_⟩, rfl, rfl⟩
  · obtain ⟨_, _, _, rfl⟩ := Peer.serve_cases hserve
    simp
  · intro k hk; cases hk
  · intro i j k k' b b' t hk; cases hk
  · intro i hi; cases hi
  · intro i k c' o hk; cases hk

/-- With no command in flight no call is open. -/
theorem Quiet.agree {s : Membership} (hq : s.Quiet) (hb : Books s) (h : s.Consistent conn) :
    s.Agree conn := by
  intro topic
  refine h topic ?_
  rintro ⟨i, k, b, t, hk, hc, _, hi⟩
  cases hp : k.phase with
  | none =>
    rw [Task.callOf_eq_none hp] at hc
    cases hc
  | some p =>
    obtain ⟨c, o, rfl⟩ := hq k (List.mem_of_getElem? hk) p hp
    exact hi (hb.answered i k c o hk hp).2

/-- An `unsubscribe` of a mapped name runs alone up to the answer of its command. -/
theorem runs_unsubscribe {s : Membership} (policy : SubscribePolicy) (limit : ℕ)
    (conn : ConnectionId) (hb : Books s) {t : TopicName} (hd : s.desired t = true)
    (hcalling : s.calling t = false) :
    ∃ on, runs (step policy limit conn) s
        [.unsubscribe t, .emit s.manager.tasks.length, .process s.manager.tasks.length 0,
          .settle s.manager.tasks.length] =
      some ⟨{ s.manager.delete t .unsubscribed with
          tasks := s.manager.tasks ++ [.unsubscribe t (.settled on .acknowledged)] },
        (s.registry.unregister conn t.topic).2, s.manager.tasks.length :: s.processed⟩ := by
  obtain ⟨e, he⟩ := Option.isSome_iff_exists.mp hd
  have hbooks := SubscriptionManager.sameBooks_delete t .unsubscribed s.manager
  have hpeers : (s.manager.delete t .unsubscribed).peers = s.manager.peers := by
    unfold SubscriptionManager.delete
    split <;> rfl
  have hup : ((s.manager.delete t .unsubscribed).peers
      (s.manager.delete t .unsubscribed).client).released = false := by
    rw [hpeers, hbooks.client]
    exact hb.up
  have hunprocessed : s.manager.tasks.length ∉ s.processed :=
    fun hmem => absurd (hb.known _ hmem) (lt_irrefl _)
  -- the call, at each stage of its command
  let n := s.manager.tasks.length
  let on := (s.manager.delete t .unsubscribed).client
  let waiting : Phase → SubscriptionManager := fun p =>
    { s.manager.delete t .unsubscribed with tasks := s.manager.tasks ++ [.unsubscribe t p] }
  have htask : ∀ p, (waiting p).tasks[n]? = some (.unsubscribe t p) :=
    fun p => List.getElem?_concat_length
  have hmoves : ∀ p q, (waiting p).setTask n (.unsubscribe t q) = waiting q := by
    intro p q
    simp [waiting, n, SubscriptionManager.setTask]
  have hunsubscribe : s.step policy limit conn (.unsubscribe t) =
      some { s with manager := waiting .building } := by
    simp only [step, hcalling, Bool.false_eq_true, if_false, SubscriptionManager.step,
      SubscriptionManager.unsubscribe, he, SubscriptionManager.spawn, hbooks.tasks,
      Option.map_some, waiting]
  have hemit : (waiting .building).step (.emit n) = some (waiting (.emitted on)) := by
    rw [← hmoves .building (.emitted on)]
    simp only [SubscriptionManager.step, htask, Task.phase, if_true, SubscriptionManager.emit]
    rw [if_neg (by simp only [waiting]; rw [hup]; simp)]
    rfl
  have hanswer : PubsubCommands.answer policy limit conn
      ⟨Client.commandId unsubPrefix t.text, 0, []⟩ s.registry =
        some (.ok, (s.registry.unregister conn t.topic).2) :=
    PubsubCommands.answer_unsub_eq policy limit conn s.registry (commandId_topic (by decide) t)
  have hprocess : step policy limit conn { s with manager := waiting (.emitted on) } (.process n 0) =
      some ⟨waiting (.emitted on), (s.registry.unregister conn t.topic).2, n :: s.processed⟩ := by
    simp only [step, htask, Task.phase, Task.commandId, hanswer]
    rw [if_neg hunprocessed]
  have hsettle : (waiting (.emitted on)).step (.settle n .acknowledged) =
      some (waiting (.settled on .acknowledged)) := by
    rw [← hmoves (.emitted on) (.settled on .acknowledged)]
    simp only [SubscriptionManager.step, htask, Task.phase]
    rfl
  have hemitted : step policy limit conn { s with manager := waiting .building } (.emit n) =
      some { s with manager := waiting (.emitted on) } := by
    simp only [step, hemit, Option.map_some]
  have hsettled : step policy limit conn ⟨waiting (.emitted on),
      (s.registry.unregister conn t.topic).2, n :: s.processed⟩ (.settle n) =
        some ⟨waiting (.settled on .acknowledged), (s.registry.unregister conn t.topic).2,
          n :: s.processed⟩ := by
    simp only [step, hsettle, Option.map_some]
    rw [if_pos List.mem_cons_self]
  refine ⟨on, ?_⟩
  show runs (step policy limit conn) s [.unsubscribe t, .emit n, .process n 0, .settle n] = _
  simp only [runs, hunsubscribe, hemitted, hprocess, hsettled, Option.bind_some]
  rfl

/-- Of two names of one topic in the map one is unsubscribed: its `unsub/` takes the topic
from the other. -/
theorem unsubscribe_takes_topic {s : Membership} (policy : SubscribePolicy) (limit : ℕ)
    (conn : ConnectionId) (hb : Books s) (hq : s.Quiet) {t t' : TopicName} (hne : t ≠ t')
    (htopic : t.topic = t'.topic) (hd : s.desired t = true) (hd' : s.desired t' = true)
    (hcalling : s.calling t = false) :
    ∃ s', runs (step policy limit conn) s
        [.unsubscribe t, .emit s.manager.tasks.length, .process s.manager.tasks.length 0,
          .settle s.manager.tasks.length] = some s' ∧ s'.Quiet ∧ ¬ s'.Agree conn := by
  obtain ⟨on, hruns⟩ := runs_unsubscribe policy limit conn hb hd hcalling
  refine ⟨_, hruns, ?_, ?_⟩
  · intro k hk p hp
    rcases List.mem_append.mp hk with hk | hk
    · exact hq k hk p hp
    · rw [List.mem_singleton.mp hk] at hp
      exact ⟨on, .acknowledged, (Option.some.inj hp).symm⟩
  · intro hagree
    have hstays := (hagree t.topic).mp (wanted_iff.mpr ⟨t', ?_, htopic.symm⟩)
    · exact ((TopicRegistry.registered_unregister conn t.topic s.registry t.topic).mp hstays).1 rfl
    · show ((s.manager.delete t .unsubscribed).entries.lookup t').isSome = true
      rw [SubscriptionManager.lookup_delete, if_neg (Ne.symm hne)]
      exact hd'

/-- **The two ends agree whenever no command is in flight.**  In every run of orderly
steps, the topics the connection is registered for are those of the names in the manager's
map, one name each, whenever every command issued has its answer.  In every run, while no two
names in use are of one topic, a command processed keeps the agreement on the topics no call
is open for exactly when it is orderly; and of two names of one topic in the map, an
`unsubscribe` of one breaks it. -/
theorem membership_agrees (policy : SubscribePolicy) (limit : ℕ) (conn : ConnectionId)
    (peers : ClientId → Peer) (c : ClientId) (m₀ : SubscriptionManager)
    (hnew : SubscriptionManager.new peers c = .ok m₀) (r₀ : TopicRegistry)
    (hfree : ∀ topic, ¬ r₀.Registered conn topic) :
    (∀ s, Reaches (step policy limit conn) Orderly ⟨m₀, r₀, []⟩ s →
      s.Sole ∧ (s.Quiet → s.Agree conn)) ∧
    (∀ s i order s', Reachable (step policy limit conn) ⟨m₀, r₀, []⟩ s → s.Sole →
      s.Consistent conn → s.step policy limit conn (.process i order) = some s' →
      (s'.Consistent conn ↔ s.Orderly (.process i order))) ∧
    ∀ s t t', Reachable (step policy limit conn) ⟨m₀, r₀, []⟩ s → s.Quiet → t ≠ t' →
      t.topic = t'.topic → s.desired t = true → s.desired t' = true → s.calling t = false →
      ∃ s', runs (step policy limit conn) s
          [.unsubscribe t, .emit s.manager.tasks.length, .process s.manager.tasks.length 0,
            .settle s.manager.tasks.length] = some s' ∧ s'.Quiet ∧ ¬ s'.Agree conn := by
  obtain ⟨hbooks₀, hentries, htasks⟩ := books_new hnew r₀
  have hbooks : ∀ s, Reachable (step policy limit conn) ⟨m₀, r₀, []⟩ s → Books s :=
    fun s hr => Reaches.invariant (I := Books) hbooks₀
      (fun _ _ _ _ hb _ hst => books_step hb hst) hr
  refine ⟨?_, ?_, ?_⟩
  · intro s hr
    have hboth : s.Sole ∧ s.Consistent conn := by
      refine Reaches.invariant (I := fun s => s.Sole ∧ s.Consistent conn) ?_ ?_ hr
      · refine ⟨?_, ?_⟩
        · intro t ht
          simp [names, hentries, htasks] at ht
        · intro topic _
          simp [wanted, hentries, hfree topic]
      · intro s a s' hs ⟨hsole, hc⟩ ho hst
        have hb := hbooks s hs.reachable
        exact ⟨sole_step hb hsole ho hst, consistent_step hb hsole hc ho hst⟩
    exact ⟨hboth.1, fun hq => hq.agree (hbooks s hr.reachable) hboth.2⟩
  · intro s i order s' hr hs hc hst
    exact consistent_process (hbooks s hr) hs hc hst
  · intro s t t' hr hq hne htopic hd hd' hcalling
    exact unsubscribe_takes_topic policy limit conn (hbooks s hr) hq hne htopic hd hd' hcalling

/-- A registry with one connection and no subscriptions. -/
def oneConnection : TopicRegistry := ⟨false, 1, State.empty.admitConnection ⟨1⟩ ⟨0⟩ none⟩

theorem not_registered_oneConnection (topic : Topic) : ¬ oneConnection.Registered ⟨1⟩ topic := by
  simp [oneConnection, TopicRegistry.Registered, State.Holds, State.admitConnection]

/-- A subscription, an update, a gap and its resync. -/
theorem membership_agrees_after_resync :
    ∃ m₀ s, SubscriptionManager.new (fun _ => Peer.fresh) ⟨0⟩ = .ok m₀ ∧
      Reaches (step allowAll 64 ⟨1⟩) Orderly ⟨m₀, oneConnection, []⟩ s ∧ s.Quiet ∧
      s.desired TopicName.prices = true ∧ s.registry.Registered ⟨1⟩ TopicName.prices.topic := by
  have hrun : ((SubscriptionManager.new (fun _ => Peer.fresh) ⟨0⟩).toOption.bind fun m₀ =>
      (runs (restrict (step allowAll 64 ⟨1⟩) Orderly) ⟨m₀, oneConnection, []⟩
        [.subscribe TopicName.prices false, .emit 0, .process 0 0, .settle 0, .resume 0,
          .update TopicName.prices 1, .decoded 1 true, .handled 1 true, .update TopicName.prices 3,
          .emit 2, .process 2 0, .settle 2, .resume 2]).map
        fun s => (s.manager.tasks, s.desired TopicName.prices)) =
      some ([.finished, .finished, .delivery ⟨0⟩ TopicName.prices ⟨0⟩ 3 .decoding], true) := by
    decide +kernel
  obtain ⟨m₀, hm₀, hmap⟩ := Option.bind_eq_some_iff.mp hrun
  obtain ⟨s, hs, hobs⟩ := Option.map_eq_some_iff.mp hmap
  simp only [Prod.mk.injEq] at hobs
  have hnew := SubscriptionManager.new_of_toOption hm₀
  have hreach := Reaches.of_runs _ .start hs
  have hquiet : s.Quiet := by
    intro k hk p hp
    rw [hobs.1] at hk
    simp only [List.mem_cons, List.not_mem_nil, or_false] at hk
    rcases hk with rfl | rfl | rfl
    · cases hp
    · cases hp
    · cases hp
  have hagree := ((membership_agrees allowAll 64 ⟨1⟩ (fun _ => Peer.fresh) ⟨0⟩ m₀ hnew oneConnection
    not_registered_oneConnection).1 s hreach).2 hquiet
  have hwanted : s.wanted TopicName.prices.topic = true :=
    wanted_iff.mpr ⟨TopicName.prices, hobs.2, rfl⟩
  exact ⟨m₀, s, hnew, hreach, hquiet, hobs.2, (hagree TopicName.prices.topic).mp hwanted⟩

/-- The resync of a gap is in flight when its topic is unsubscribed.  The server
processes the `unsub/` first, and the resync registers the topic again. -/
theorem resync_outlives_unsubscribe :
    ∃ m₀ s, SubscriptionManager.new (fun _ => Peer.fresh) ⟨0⟩ = .ok m₀ ∧
      Reachable (step allowAll 64 ⟨1⟩) ⟨m₀, oneConnection, []⟩ s ∧ s.Quiet ∧
      s.desired TopicName.prices = false ∧ s.registry.Registered ⟨1⟩ TopicName.prices.topic ∧
      ¬ s.Agree ⟨1⟩ := by
  have hrun : ((SubscriptionManager.new (fun _ => Peer.fresh) ⟨0⟩).toOption.bind fun m₀ =>
      (runs (step allowAll 64 ⟨1⟩) ⟨m₀, oneConnection, []⟩
        [.subscribe TopicName.prices false, .emit 0, .process 0 0, .settle 0, .resume 0,
          .update TopicName.prices 1, .decoded 1 true, .handled 1 true, .update TopicName.prices 3,
          .emit 2, .unsubscribe TopicName.prices, .emit 3, .process 3 0, .process 2 0, .settle 2,
          .settle 3, .resume 2, .resume 3]).map
        fun s => (s.manager.tasks, s.manager.entries.keys,
          decide (s.registry.Registered ⟨1⟩ TopicName.prices.topic))) =
      some ([.finished, .finished, .finished, .finished], [], true) := by decide +kernel
  obtain ⟨m₀, hm₀, hmap⟩ := Option.bind_eq_some_iff.mp hrun
  obtain ⟨s, hs, hobs⟩ := Option.map_eq_some_iff.mp hmap
  simp only [Prod.mk.injEq] at hobs
  obtain ⟨htasks, hkeys, hreg⟩ := hobs
  have hdesired : s.desired TopicName.prices = false := by
    rw [Bool.eq_false_iff, Ne, ← mem_keys_iff, hkeys]
    simp
  have hregistered : s.registry.Registered ⟨1⟩ TopicName.prices.topic := of_decide_eq_true hreg
  refine ⟨m₀, s, SubscriptionManager.new_of_toOption hm₀, Reachable.of_runs hs, ?_, hdesired,
    hregistered, ?_⟩
  · intro k hk p hp
    rw [htasks] at hk
    simp only [List.mem_cons, List.not_mem_nil, or_false, or_self] at hk
    subst hk
    cases hp
  · intro hagree
    have hwanted := (hagree TopicName.prices.topic).mpr hregistered
    rw [wanted, hkeys] at hwanted
    cases hwanted

end Membership
end Client
end TightbeamExt
