import TightbeamExt.Base.Table
import TightbeamExt.Pubsub.Lane

/-!
# The registry's maps

Three maps under one lock: topics with their members, connections with the
topics they hold, and the subscribers themselves.  `register`, `unregister` and
`drop_connection` keep them in step; `drop_connection` takes the connection entry
out first and cleans the other two afterwards, so in between the maps agree only
up to the subscribers still to be removed.

The cells a removal closes are not part of the maps: each operation returns the
removed ids.

## Main definitions

* `State.register`, `State.unregister`, `State.dropConnection`,
  `State.removeSubscriber` — the operations.
* `State.Coherent limit s` — **the representation invariant**.
* `State.CoherentBut limit gone s` — the same up to the subscribers `gone`, whose
  connection entry is already deleted.

## Main results

* `Coherent.register`, `Coherent.unregister`, `Coherent.dropConnection` — the
  operations keep it.
-/

namespace TightbeamExt
namespace Pubsub

/-! ### The data -/

/-- A connection's emit handle, owned by the transport library. -/
structure MuxHandle where
  /-- Which connection it drives. -/
  val : ℕ
  deriving DecidableEq, Repr

/-- The fields of a subscriber that never change. -/
structure Subscriber where
  /-- The topic it is a member of. -/
  topic : Topic
  /-- The connection it belongs to. -/
  connection : ConnectionId
  deriving DecidableEq

/-- Per-topic bookkeeping. -/
structure TopicState where
  /-- The highest order delivered here. -/
  lastOrder : ℕ
  /-- The member set. -/
  members : KeySet SubscriberId

/-- `TopicState::default`. -/
def TopicState.empty : TopicState := ⟨0, ∅⟩

/-- Per-connection bookkeeping. -/
structure ConnectionState where
  /-- The emit handle. -/
  handle : MuxHandle
  /-- The identity the application attached. -/
  identity : Option Octets
  /-- The connection's live subscriptions. -/
  topics : Table Topic SubscriberId

/-- What the state lock guards. -/
structure State where
  /-- Topics with members. -/
  topics : Table Topic TopicState
  /-- Registered connections. -/
  connections : Table ConnectionId ConnectionState
  /-- Live subscribers. -/
  subscribers : Table SubscriberId Subscriber

/-- Why a subscription was not registered. -/
inductive RegisterError
  /-- The connection id was never registered or already dropped. -/
  | unknownConnection
  /-- The registry is quiescing. -/
  | draining
  /-- The connection already holds the maximum of subscriptions. -/
  | limitReached
  deriving DecidableEq, Repr

/-- The ways `register` ends once it is past the draining check. -/
inductive Registration
  /-- No subscription. -/
  | refused (e : RegisterError)
  /-- The connection held the topic already. -/
  | existing (id : SubscriberId)
  /-- A new subscriber, under the next free id. -/
  | created (s : State)

namespace State

/-- `State::default`. -/
def empty : State := ⟨∅, ∅, ∅⟩

/-! ### The operations -/

/-- `register` under the lock: `fresh` is the id the counter hands out next. -/
def register (limit : ℕ) (fresh : SubscriberId) (c : ConnectionId) (t : Topic) (s : State) :
    Registration :=
  match s.connections.lookup c with
  | none => .refused .unknownConnection
  | some connected =>
      match connected.topics.lookup t with
      | some id => .existing id
      | none =>
          if limit ≤ connected.topics.keys.length then .refused .limitReached
          else
            let entry := (s.topics.lookup t).getD .empty
            .created
              { subscribers := s.subscribers.insert fresh ⟨t, c⟩
                topics := s.topics.insert t { entry with members := entry.members.insert fresh () }
                connections :=
                  s.connections.insert c { connected with topics := connected.topics.insert t fresh } }

/-- `remove_subscriber`: detach one subscriber from the maps.  An emptied topic
is pruned. -/
def removeSubscriber (s : State) (id : SubscriberId) : State :=
  match s.subscribers.lookup id with
  | none => s
  | some subscriber =>
      { s with
        subscribers := s.subscribers.erase id
        topics :=
          match s.topics.lookup subscriber.topic with
          | none => s.topics
          | some entry =>
              if (entry.members.erase id).keys = [] then s.topics.erase subscriber.topic
              else s.topics.insert subscriber.topic { entry with members := entry.members.erase id } }

/-- `unregister`: the removed subscriber, if the connection held the topic. -/
def unregister (c : ConnectionId) (t : Topic) (s : State) : Option SubscriberId × State :=
  match s.connections.lookup c with
  | none => (none, s)
  | some connected =>
      match connected.topics.lookup t with
      | none => (none, s)
      | some id =>
          let entry := { connected with topics := connected.topics.erase t }
          (some id, removeSubscriber { s with connections := s.connections.insert c entry } id)

/-- `Inner::drop_connection`: the removed subscribers. -/
def dropConnection (c : ConnectionId) (s : State) : List SubscriberId × State :=
  match s.connections.lookup c with
  | none => ([], s)
  | some connected =>
      let ids := Table.values connected.topics
      (ids, ids.foldl removeSubscriber { s with connections := s.connections.erase c })

/-- The tail of `admit_connection`: insert a connection under its allocated id. -/
def admitConnection (c : ConnectionId) (handle : MuxHandle) (identity : Option Octets)
    (s : State) : State :=
  { s with connections := s.connections.insert c ⟨handle, identity, ∅⟩ }

/-- The `last_order` bookkeeping of `deliver` and `quiesce`. -/
def setLastOrder (t : Topic) (f : ℕ → ℕ) (s : State) : State :=
  { s with topics := Table.modify t (fun e => { e with lastOrder := f e.lastOrder }) s.topics }

/-! ### The representation invariant -/

/-- `id` is listed as a member of `t`. -/
def Member (s : State) (t : Topic) (id : SubscriberId) : Prop :=
  ∃ e, s.topics.lookup t = some e ∧ id ∈ e.members

/-- Connection `c` holds topic `t` as subscriber `id`. -/
def Holds (s : State) (c : ConnectionId) (t : Topic) (id : SubscriberId) : Prop :=
  ∃ k, s.connections.lookup c = some k ∧ k.topics.lookup t = some id

/-- The maps agree up to the subscribers `gone`, which no connection holds any
more. -/
structure CoherentBut (limit : ℕ) (gone : List SubscriberId) (s : State) : Prop where
  /-- A subscriber is what its connection holds. -/
  routes : ∀ id t c, (s.subscribers.lookup id = some ⟨t, c⟩ ∧ id ∉ gone) ↔ s.Holds c t id
  /-- A topic's members are its subscribers. -/
  members : ∀ id t, s.Member t id ↔ ∃ c, s.subscribers.lookup id = some ⟨t, c⟩
  /-- No topic entry is empty. -/
  nonempty : ∀ t e, s.topics.lookup t = some e → e.members.keys ≠ []
  /-- No connection holds too many topics. -/
  limited : ∀ c k, s.connections.lookup c = some k → k.topics.keys.length ≤ limit

/-- **The representation invariant of the three maps.** -/
abbrev Coherent (limit : ℕ) (s : State) : Prop := CoherentBut limit [] s

variable {limit : ℕ} {s : State}

theorem coherent_empty (limit : ℕ) : Coherent limit State.empty where
  routes := by intro id t c; simp [State.empty, Holds]
  members := by intro id t; simp [State.empty, Member]
  nonempty := by intro t e h; simp [State.empty] at h
  limited := by intro c k h; simp [State.empty] at h

/-- A live subscriber is held by its connection. -/
theorem Coherent.holds (h : Coherent limit s) {id : SubscriberId} {t : Topic} {c : ConnectionId}
    (hs : s.subscribers.lookup id = some ⟨t, c⟩) : s.Holds c t id :=
  (h.routes id t c).mp ⟨hs, List.not_mem_nil⟩

/-- What a connection holds is a live subscriber. -/
theorem Coherent.subscriber (h : Coherent limit s) {id : SubscriberId} {t : Topic}
    {c : ConnectionId} (hh : s.Holds c t id) : s.subscribers.lookup id = some ⟨t, c⟩ :=
  ((h.routes id t c).mpr hh).1

/-! ### Removing subscribers -/

/-- Which members are left after a removal. -/
theorem member_removeSubscriber {gone : List SubscriberId} (h : CoherentBut limit gone s)
    (id id' : SubscriberId) (t : Topic) :
    (s.removeSubscriber id).Member t id' ↔ s.Member t id' ∧ id' ≠ id := by
  unfold removeSubscriber
  cases hsub : s.subscribers.lookup id with
  | none =>
    simp only
    refine ⟨fun hm => ⟨hm, ?_⟩, fun hm => hm.1⟩
    rintro rfl
    obtain ⟨c, hc⟩ := (h.members id' t).mp hm
    rw [hsub] at hc; cases hc
  | some sub =>
    obtain ⟨t₀, c₀⟩ := sub
    -- only the members of the removed subscriber's own topic can contain it
    have hother : ∀ {t' : Topic} {j : SubscriberId}, t' ≠ t₀ → s.Member t' j → j ≠ id := by
      rintro t' j ht' hm rfl
      obtain ⟨c, hc⟩ := (h.members j t').mp hm
      rw [hsub] at hc
      cases hc
      exact ht' rfl
    obtain ⟨e, he, -⟩ := (h.members id t₀).mpr ⟨c₀, hsub⟩
    simp only [he, Member]
    split
    · next hempty =>
      simp only [Table.lookup_erase_eq]
      by_cases ht : t = t₀
      · subst ht
        simp only [if_true, reduceCtorEq, false_and, exists_false, false_iff, not_and, not_not,
          he, Option.some.injEq, exists_eq_left']
        intro hmem
        by_contra hne
        have : id' ∈ (e.members.erase id).keys := by
          rw [← AList.mem_keys, AList.mem_erase]; exact ⟨hne, hmem⟩
        rw [hempty] at this
        exact absurd this List.not_mem_nil
      · simp only [if_neg ht]
        exact ⟨fun hm => ⟨hm, hother ht hm⟩, fun hm => hm.1⟩
    · simp only [Table.lookup_insert_eq]
      by_cases ht : t = t₀
      · subst ht
        simp only [if_true, Option.some.injEq, exists_eq_left', he, AList.mem_erase]
        exact And.comm
      · simp only [if_neg ht]
        exact ⟨fun hm => ⟨hm, hother ht hm⟩, fun hm => hm.1⟩

theorem lookup_removeSubscriber (id id' : SubscriberId) :
    (s.removeSubscriber id).subscribers.lookup id' =
      if id' = id then none else s.subscribers.lookup id' := by
  unfold removeSubscriber
  cases hsub : s.subscribers.lookup id with
  | none =>
    simp only
    split
    · next h => rw [h, hsub]
    · rfl
  | some sub => exact Table.lookup_erase_eq id id' s.subscribers

@[simp] theorem connections_removeSubscriber (id : SubscriberId) :
    (s.removeSubscriber id).connections = s.connections := by
  unfold removeSubscriber
  cases s.subscribers.lookup id <;> rfl

/-- A removal leaves no empty topic entry behind. -/
theorem nonempty_removeSubscriber (id : SubscriberId)
    (h : ∀ t e, s.topics.lookup t = some e → e.members.keys ≠ []) :
    ∀ t e, (s.removeSubscriber id).topics.lookup t = some e → e.members.keys ≠ [] := by
  intro t e he
  unfold removeSubscriber at he
  cases hsub : s.subscribers.lookup id with
  | none => rw [hsub] at he; exact h t e he
  | some sub =>
    simp only [hsub] at he
    cases ht : s.topics.lookup sub.topic with
    | none => simp only [ht] at he; exact h t e he
    | some entry =>
      simp only [ht] at he
      split at he
      · rw [Table.lookup_erase_eq] at he
        split at he
        · cases he
        · exact h t e he
      · next hne =>
        rw [Table.lookup_insert_eq] at he
        split at he
        · simp only [Option.some.injEq] at he
          subst he
          exact hne
        · exact h t e he

/-- Removing one of the subscribers the maps disagree on settles it. -/
theorem CoherentBut.removeSubscriber {id : SubscriberId} {gone : List SubscriberId}
    (h : CoherentBut limit (id :: gone) s) : CoherentBut limit gone (s.removeSubscriber id) where
  routes := by
    intro id' t c
    have hold := h.routes id' t c
    simp only [Holds, connections_removeSubscriber] at hold ⊢
    rw [lookup_removeSubscriber, ← hold]
    by_cases hid : id' = id
    · simp [hid]
    · simp [hid]
  members := by
    intro id' t
    rw [member_removeSubscriber h, h.members, lookup_removeSubscriber]
    by_cases hid : id' = id
    · simp [hid]
    · simp [hid]
  nonempty := nonempty_removeSubscriber id h.nonempty
  limited := by
    rw [connections_removeSubscriber]
    exact h.limited

theorem CoherentBut.removeAll : ∀ {ids : List SubscriberId} {s : State},
    CoherentBut limit ids s → Coherent limit (ids.foldl State.removeSubscriber s) := by
  intro ids
  induction ids with
  | nil => intro s h; exact h
  | cons id ids ih => intro s h; exact ih h.removeSubscriber

/-! ### Maps that only shrink -/

/-- `s'` has no subscriber and no connection that `s` has not. -/
structure Shrinks (s s' : State) : Prop where
  /-- The subscribers left were there. -/
  subscribers : ∀ id sub, s'.subscribers.lookup id = some sub → s.subscribers.lookup id = some sub
  /-- So were the connections. -/
  connections : ∀ c, s.connections.lookup c = none → s'.connections.lookup c = none

theorem Shrinks.refl (s : State) : Shrinks s s := ⟨fun _ _ h => h, fun _ h => h⟩

theorem Shrinks.trans {s s' s'' : State} (h : Shrinks s s') (h' : Shrinks s' s'') :
    Shrinks s s'' :=
  ⟨fun id sub hs => h.subscribers id sub (h'.subscribers id sub hs),
    fun c hc => h'.connections c (h.connections c hc)⟩

theorem shrinks_connections {s : State} {connections : Table ConnectionId ConnectionState}
    (h : ∀ c, s.connections.lookup c = none → connections.lookup c = none) :
    Shrinks s { s with connections := connections } :=
  ⟨fun _ _ hs => hs, h⟩

theorem shrinks_removeSubscriber (s : State) (id : SubscriberId) :
    Shrinks s (s.removeSubscriber id) where
  subscribers := by
    intro id' sub h
    rw [lookup_removeSubscriber] at h
    split at h
    · cases h
    · exact h
  connections := by
    intro c hc
    rw [connections_removeSubscriber]
    exact hc

theorem shrinks_removeAll : ∀ (ids : List SubscriberId) (s : State),
    Shrinks s (ids.foldl State.removeSubscriber s) := by
  intro ids
  induction ids with
  | nil => intro s; exact Shrinks.refl s
  | cons id ids ih => intro s; exact (shrinks_removeSubscriber s id).trans (ih _)

theorem shrinks_unregister (s : State) (c : ConnectionId) (t : Topic) :
    Shrinks s (s.unregister c t).2 := by
  unfold State.unregister
  cases hc : s.connections.lookup c with
  | none => exact Shrinks.refl s
  | some connected =>
    cases ht : connected.topics.lookup t with
    | none => simpa only [ht] using Shrinks.refl s
    | some id =>
      simp only [ht]
      refine (shrinks_connections ?_).trans (shrinks_removeSubscriber _ id)
      intro c' hc'
      rw [Table.lookup_insert_eq, if_neg]
      · exact hc'
      · rintro rfl
        rw [hc] at hc'
        cases hc'

theorem shrinks_dropConnection (s : State) (c : ConnectionId) :
    Shrinks s (s.dropConnection c).2 := by
  unfold State.dropConnection
  cases hc : s.connections.lookup c with
  | none => exact Shrinks.refl s
  | some connected =>
    refine (shrinks_connections ?_).trans (shrinks_removeAll _ _)
    intro c' hc'
    rw [Table.lookup_erase_eq]
    split
    · rfl
    · exact hc'

/-- Which subscribers a removal of several leaves. -/
theorem lookup_removeAll : ∀ (ids : List SubscriberId) (s : State) (id : SubscriberId),
    (ids.foldl State.removeSubscriber s).subscribers.lookup id =
      if id ∈ ids then none else s.subscribers.lookup id := by
  intro ids
  induction ids with
  | nil => intro s id; rfl
  | cons j ids ih =>
    intro s id
    rw [List.foldl_cons, ih, lookup_removeSubscriber]
    by_cases hj : id = j
    · simp [hj]
    · simp [hj]

theorem lookup_unregister (s : State) (c : ConnectionId) (t : Topic) (id : SubscriberId) :
    (s.unregister c t).2.subscribers.lookup id =
      if id ∈ (s.unregister c t).1.toList then none else s.subscribers.lookup id := by
  unfold State.unregister
  cases hc : s.connections.lookup c with
  | none => simp
  | some connected =>
    cases ht : connected.topics.lookup t with
    | none => simp [ht]
    | some removed =>
      simp only [ht, Option.toList_some, List.mem_singleton]
      exact lookup_removeSubscriber removed id

theorem lookup_dropConnection (s : State) (c : ConnectionId) (id : SubscriberId) :
    (s.dropConnection c).2.subscribers.lookup id =
      if id ∈ (s.dropConnection c).1 then none else s.subscribers.lookup id := by
  unfold State.dropConnection
  cases hc : s.connections.lookup c with
  | none => simp
  | some connected => exact lookup_removeAll _ _ id

@[simp] theorem subscribers_setLastOrder (s : State) (t : Topic) (f : ℕ → ℕ) :
    (s.setLastOrder t f).subscribers = s.subscribers := rfl

@[simp] theorem connections_setLastOrder (s : State) (t : Topic) (f : ℕ → ℕ) :
    (s.setLastOrder t f).connections = s.connections := rfl

/-- What a registration that creates a subscriber found and did. -/
theorem created_of_register {limit : ℕ} {fresh : SubscriberId} {c : ConnectionId} {t : Topic}
    {s s' : State} (hr : s.register limit fresh c t = .created s') :
    ∃ connected, s.connections.lookup c = some connected ∧ connected.topics.lookup t = none ∧
      connected.topics.keys.length < limit ∧
      s' =
        { subscribers := s.subscribers.insert fresh ⟨t, c⟩
          topics := s.topics.insert t
            { (s.topics.lookup t).getD .empty with
              members := ((s.topics.lookup t).getD .empty).members.insert fresh () }
          connections :=
            s.connections.insert c { connected with topics := connected.topics.insert t fresh } } := by
  unfold State.register at hr
  cases hc : s.connections.lookup c with
  | none => simp [hc] at hr
  | some connected =>
    cases ht : connected.topics.lookup t with
    | some id => simp [hc, ht] at hr
    | none =>
      simp only [hc, ht] at hr
      split at hr
      · cases hr
      · next hlimit =>
        cases hr
        exact ⟨connected, rfl, ht, not_le.mp hlimit, rfl⟩

/-- It makes one subscriber more, and no connection more. -/
theorem lookup_of_register {limit : ℕ} {fresh : SubscriberId} {c : ConnectionId} {t : Topic}
    {s s' : State} (hr : s.register limit fresh c t = .created s') :
    s'.subscribers = s.subscribers.insert fresh ⟨t, c⟩ ∧
      ∀ c', s.connections.lookup c' = none → s'.connections.lookup c' = none := by
  obtain ⟨connected, hc, -, -, rfl⟩ := created_of_register hr
  refine ⟨rfl, ?_⟩
  intro c' hc'
  rw [Table.lookup_insert_eq, if_neg]
  · exact hc'
  · rintro rfl
    rw [hc] at hc'
    cases hc'

/-- The connection holds the topic as the new subscriber, and nothing else changed
hands. -/
theorem holds_register {limit : ℕ} {fresh id : SubscriberId} {c c' : ConnectionId} {t t' : Topic}
    {s s' : State} (hr : s.register limit fresh c t = .created s') :
    s'.Holds c' t' id ↔ (c' = c ∧ t' = t ∧ id = fresh) ∨ s.Holds c' t' id := by
  obtain ⟨connected, hc, ht, -, rfl⟩ := created_of_register hr
  simp only [Holds, Table.lookup_insert_eq]
  by_cases hcc : c' = c
  · subst hcc
    simp only [if_true, Option.some.injEq, exists_eq_left', hc, Table.lookup_insert_eq, true_and]
    by_cases htt : t' = t
    · subst htt
      simp [ht, eq_comm]
    · simp [htt]
  · simp [hcc]

/-- A registration that finds its topic held. -/
theorem holds_of_existing {limit : ℕ} {fresh id : SubscriberId} {c : ConnectionId} {t : Topic}
    {s : State} (hr : s.register limit fresh c t = .existing id) : s.Holds c t id := by
  unfold State.register at hr
  cases hc : s.connections.lookup c with
  | none => simp [hc] at hr
  | some connected =>
    cases ht : connected.topics.lookup t with
    | some existing =>
      simp only [hc, ht, Registration.existing.injEq] at hr
      exact ⟨connected, hc, by rw [ht, hr]⟩
    | none =>
      simp only [hc, ht] at hr
      split at hr
      · cases hr
      · cases hr

/-- The new subscriber is a member of its topic, and no other membership changed. -/
theorem member_register {limit : ℕ} {fresh id : SubscriberId} {c : ConnectionId} {t t' : Topic}
    {s s' : State} (hr : s.register limit fresh c t = .created s') :
    s'.Member t' id ↔ (t' = t ∧ id = fresh) ∨ s.Member t' id := by
  obtain ⟨connected, -, -, -, rfl⟩ := created_of_register hr
  by_cases htt : t' = t
  · subst htt
    simp only [Member, Table.lookup_insert_eq, if_true, Option.some.injEq, exists_eq_left',
      AList.mem_insert, true_and]
    refine or_congr_right ?_
    cases s.topics.lookup t' with
    | none => simp [TopicState.empty]
    | some e => simp
  · simp [Member, htt]

/-! ### The operations keep the invariant -/

theorem Coherent.unregister (h : Coherent limit s) (c : ConnectionId) (t : Topic) :
    Coherent limit (s.unregister c t).2 := by
  unfold State.unregister
  cases hc : s.connections.lookup c with
  | none => exact h
  | some connected =>
    cases ht : connected.topics.lookup t with
    | none => simpa only [ht] using h
    | some id =>
      have hsub : s.subscribers.lookup id = some ⟨t, c⟩ := h.subscriber ⟨connected, hc, ht⟩
      simp only [ht]
      refine CoherentBut.removeSubscriber ⟨?_, h.members, h.nonempty, ?_⟩
      · intro id' t' c'
        have hold := h.routes id' t' c'
        simp only [List.not_mem_nil, not_false_eq_true, and_true] at hold
        simp only [Holds, Table.lookup_insert_eq, List.mem_singleton]
        by_cases hcc : c' = c
        · subst hcc
          simp only [if_true, Option.some.injEq, exists_eq_left', Table.lookup_erase_eq]
          simp only [Holds, hc, Option.some.injEq, exists_eq_left'] at hold
          by_cases htt : t' = t
          · subst htt
            simp only [if_true, reduceCtorEq, iff_false, not_and, not_not]
            intro hs
            rw [hold, ht, Option.some.injEq] at hs
            exact hs.symm
          · simp only [if_neg htt, ← hold]
            refine ⟨fun hs => hs.1, fun hs => ⟨hs, ?_⟩⟩
            rintro rfl
            rw [hsub] at hs
            cases hs
            exact htt rfl
        · simp only [if_neg hcc]
          rw [hold]
          refine ⟨fun hs => hs.1, fun hs => ⟨hs, ?_⟩⟩
          rintro rfl
          have := hold.mpr hs
          rw [hsub] at this
          cases this
          exact hcc rfl
      · intro c' k hk
        rw [Table.lookup_insert_eq] at hk
        split at hk
        · simp only [Option.some.injEq] at hk
          subst hk
          exact (Table.length_keys_erase_le t connected.topics).trans (h.limited c connected hc)
        · exact h.limited c' k hk

theorem Coherent.dropConnection (h : Coherent limit s) (c : ConnectionId) :
    Coherent limit (s.dropConnection c).2 := by
  unfold State.dropConnection
  cases hc : s.connections.lookup c with
  | none => exact h
  | some connected =>
    refine CoherentBut.removeAll ⟨?_, h.members, h.nonempty, ?_⟩
    · intro id t c'
      have hold := h.routes id t c'
      simp only [List.not_mem_nil, not_false_eq_true, and_true] at hold
      simp only [Holds, Table.lookup_erase_eq, Table.mem_values]
      by_cases hcc : c' = c
      · -- every subscriber of the dropped connection is on the removal list
        subst hcc
        simp only [if_true, reduceCtorEq, false_and, exists_false, iff_false, not_and, not_not]
        intro hs
        obtain ⟨k, hk, hkt⟩ := hold.mp hs
        rw [hc, Option.some.injEq] at hk
        subst hk
        exact ⟨t, hkt⟩
      · simp only [if_neg hcc]
        refine ⟨fun hs => hold.mp hs.1, fun hh => ⟨hold.mpr hh, ?_⟩⟩
        rintro ⟨t', ht'⟩
        have hs := h.subscriber (show s.Holds c t' id from ⟨connected, hc, ht'⟩)
        rw [hold.mpr hh] at hs
        cases hs
        exact hcc rfl
    · intro c' k hk
      rw [Table.lookup_erase_eq] at hk
      split at hk
      · cases hk
      · exact h.limited c' k hk

/-- Registering under an id nobody has keeps the invariant. -/
theorem Coherent.register (h : Coherent limit s) {fresh : SubscriberId} {c : ConnectionId}
    {t : Topic} {s' : State} (hfresh : s.subscribers.lookup fresh = none)
    (hr : s.register limit fresh c t = .created s') : Coherent limit s' := by
  have hsub := (lookup_of_register hr).1
  -- no topic lists the new id yet
  have hunlisted : ∀ t', ¬ s.Member t' fresh := by
    intro t' hm
    obtain ⟨c', hc'⟩ := (h.members fresh t').mp hm
    rw [hfresh] at hc'
    cases hc'
  refine ⟨?_, ?_, ?_, ?_⟩
  · intro id t' c'
    rw [holds_register hr, hsub, Table.lookup_insert_eq, ← h.routes id t' c']
    by_cases hid : id = fresh
    · subst hid
      simp [hfresh, eq_comm, and_comm]
    · simp [hid]
  · intro id t'
    rw [member_register hr, hsub]
    simp only [Table.lookup_insert_eq]
    by_cases hid : id = fresh
    · subst hid
      simp [hunlisted t', eq_comm]
    · simp [hid, h.members id t']
  · obtain ⟨connected, -, -, -, rfl⟩ := created_of_register hr
    intro t' e he
    rw [Table.lookup_insert_eq] at he
    split at he
    · simp only [Option.some.injEq] at he
      subst he
      rw [AList.keys_insert]
      exact List.cons_ne_nil _ _
    · exact h.nonempty t' e he
  · obtain ⟨connected, -, -, hlimit, rfl⟩ := created_of_register hr
    intro c' k hk
    rw [Table.lookup_insert_eq] at hk
    split at hk
    · simp only [Option.some.injEq] at hk
      subst hk
      exact (Table.length_keys_insert_le t fresh connected.topics).trans hlimit
    · exact h.limited c' k hk

theorem Coherent.admitConnection (h : Coherent limit s) {c : ConnectionId} (handle : MuxHandle)
    (identity : Option Octets) (hc : s.connections.lookup c = none) :
    Coherent limit (s.admitConnection c handle identity) where
  routes := by
    intro id t c'
    refine (h.routes id t c').trans ?_
    simp only [Holds, State.admitConnection, Table.lookup_insert_eq]
    by_cases hcc : c' = c
    · subst hcc; simp [hc]
    · simp [hcc]
  members := h.members
  nonempty := h.nonempty
  limited := by
    intro c' k hk
    simp only [State.admitConnection, Table.lookup_insert_eq] at hk
    split at hk
    · simp only [Option.some.injEq] at hk
      subst hk
      exact Nat.zero_le _
    · exact h.limited c' k hk

theorem Coherent.setLastOrder (h : Coherent limit s) (t : Topic) (f : ℕ → ℕ) :
    Coherent limit (s.setLastOrder t f) where
  routes := h.routes
  members := by
    intro id t'
    refine Iff.trans ?_ (h.members id t')
    simp only [Member, State.setLastOrder, Table.lookup_modify]
    by_cases ht : t' = t
    · subst ht
      cases he : s.topics.lookup t' <;> simp
    · simp [ht]
  nonempty := by
    intro t' e he
    simp only [State.setLastOrder, Table.lookup_modify] at he
    split at he
    · rw [Option.map_eq_some_iff] at he
      obtain ⟨e₀, he₀, rfl⟩ := he
      exact h.nonempty t e₀ he₀
    · exact h.nonempty t' e he
  limited := h.limited

end State
end Pubsub
end TightbeamExt
