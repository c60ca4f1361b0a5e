import TightbeamExt.Pubsub.Backplane
import TightbeamExt.Pubsub.Node

/-!
# Fan-out and the order of iteration

`deliver` goes through the members of a topic in whatever order the hash set gives them,
pushes the update to each, and then disconnects the connections the policy voted off, in
the order it met them.  A disconnect removes subscribers of other topics too.

Here the order of iteration is an argument.  Two orders lead to the same lanes and to
maps that agree on every lookup: each member's push reads and writes its own lane only,
and what the disconnects leave depends on the set of voted-off connections alone.

## Main definitions

* `Node.visit`, `Node.fanOutOver` — the loop of `fan_out` over a given order.
* `Node.disconnect`, `Node.deliverOver` — the rest of `deliver`.
* `State.Agree` — maps with the same lookups and the same members.
* `Node.Dropped` — what is left after some connections were dropped.

## Main results

* `fanOutOver_eq_fanOut` — in the order of the model's set this is `Node.fanOut`.
* `dropped_of_disconnects` — the disconnects one after the other.
* `fan_out_order_irrelevant` — **`deliver` does not depend on the order of iteration**.
-/

namespace TightbeamExt
namespace Pubsub

namespace Node

/-! ### The loop -/

/-- One round of the loop of `fan_out`: the lanes and the connections voted off so far. -/
def visit (o : RegistryOptions) (onFull : DeliveryPolicy) (update : Frame) (s : State)
    (acc : (SubscriberId → Cell) × List ConnectionId) (id : SubscriberId) :
    (SubscriberId → Cell) × List ConnectionId :=
  match s.subscribers.lookup id with
  | none => acc
  | some subscriber =>
      let pushed := (acc.1 id).push o.queueCapacity onFull subscriber.topic update
      (Function.update acc.1 id pushed.1,
        match pushed.2 with
        | .disconnect => acc.2 ++ [subscriber.connection]
        | _ => acc.2)

/-- `fan_out` over the members in the order `ids`. -/
def fanOutOver (o : RegistryOptions) (onFull : DeliveryPolicy) (update : Frame)
    (ids : List SubscriberId) (n : Node) : (SubscriberId → Cell) × List ConnectionId :=
  ids.foldl (visit o onFull update n.state) (n.cells, [])

/-- `disconnect`: drop the connection, and shut its link down if it had one. -/
def disconnect (r : Node × List (ConnectionId × MuxHandle)) (c : ConnectionId) :
    Node × List (ConnectionId × MuxHandle) :=
  let handle := (r.1.state.connections.lookup c).map ConnectionState.handle
  (r.1.dropConnection c, r.2 ++ (handle.map fun h => (c, h)).toList)

end Node

/-- What a `deliver` did. -/
structure Delivered where
  /-- What it returned. -/
  result : Except DeliverError Unit
  /-- The node afterwards. -/
  node : Node
  /-- The connections `fan_out` voted off. -/
  doomed : List ConnectionId
  /-- The connections that were dropped, with the links shut down. -/
  shutdowns : List (ConnectionId × MuxHandle)

namespace Node

/-- `deliver`, with the members in the order `ids`. -/
def deliverOver (b : FrameBuilder) (o : RegistryOptions) (onFull : DeliveryPolicy) (t : Topic)
    (order : ℕ) (payload : Octets) (ids : List SubscriberId) (n : Node) : Delivered :=
  if n.draining then ⟨.error .draining, n, [], []⟩
  else
    match updateFrame b t order payload with
    | .error cause => ⟨.error (.build cause), n, [], []⟩
    | .ok update =>
        let n := { n with state := n.state.setLastOrder t fun last => max last order }
        let (cells, doomed) := n.fanOutOver o onFull update ids
        let r := doomed.foldl disconnect ({ n with cells := cells }, [])
        ⟨.ok (), r.1, doomed, r.2⟩

variable (o : RegistryOptions) (onFull : DeliveryPolicy) (update : Frame)

/-- The loop over distinct members, each visited with the lane it had at the start. -/
theorem foldl_visit (n : Node) : ∀ (ids : List SubscriberId), ids.Nodup →
    ∀ (cells : SubscriberId → Cell) (doomed : List ConnectionId),
      (∀ id ∈ ids, cells id = n.cells id) →
      ids.foldl (visit o onFull update n.state) (cells, doomed) =
        (sweep (pushTo o (fun _ => onFull) update n.state) ids cells,
          doomed ++ ids.filterMap (doomedBy o (fun _ => onFull) update n)) := by
  intro ids
  induction ids with
  | nil => intro _ cells doomed _; simp [sweep]
  | cons id ids ih =>
    intro hnd cells doomed hcells
    rw [List.nodup_cons] at hnd
    have hid := hcells id List.mem_cons_self
    have hrest : ∀ id' ∈ ids, cells id' = n.cells id' := fun id' h =>
      hcells id' (List.mem_cons_of_mem _ h)
    have hsweep : sweep (pushTo o (fun _ => onFull) update n.state) (id :: ids) cells =
        sweep (pushTo o (fun _ => onFull) update n.state) ids
          (Function.update cells id (pushTo o (fun _ => onFull) update n.state id (cells id))) := rfl
    rw [List.foldl_cons, hsweep]
    cases hsub : n.state.subscribers.lookup id with
    | none =>
      have hvisit : visit o onFull update n.state (cells, doomed) id = (cells, doomed) := by
        simp [visit, hsub]
      rw [hvisit, ih hnd.2 cells doomed hrest]
      simp [pushTo, doomedBy, hsub]
    | some sub =>
      -- the other lanes are not touched by this push
      have hother : ∀ c, ∀ id' ∈ ids, Function.update cells id c id' = n.cells id' := by
        intro c id' h'
        have hne : id' ≠ id := by
          rintro rfl
          exact hnd.1 h'
        rw [Function.update_of_ne hne]
        exact hrest id' h'
      have hvisit : visit o onFull update n.state (cells, doomed) id =
          (Function.update cells id (pushTo o (fun _ => onFull) update n.state id (cells id)),
            doomed ++ (doomedBy o (fun _ => onFull) update n id).toList) := by
        simp only [visit, pushTo, doomedBy, hsub, hid]
        cases ((n.cells id).push o.queueCapacity onFull sub.topic update).2 <;> simp
      rw [hvisit, ih hnd.2 _ _ (hother _)]
      cases hdoom : doomedBy o (fun _ => onFull) update n id with
      | none => rw [List.filterMap_cons_none hdoom]; simp
      | some c => rw [List.filterMap_cons_some hdoom]; simp

theorem members_nodup (n : Node) (t : Topic) : (n.members t).Nodup := by
  unfold members
  split
  · exact List.nodup_nil
  · next entry _ => exact entry.members.keys_nodup

theorem fanOutOver_eq (n : Node) {ids : List SubscriberId} (hnd : ids.Nodup) :
    n.fanOutOver o onFull update ids =
      (sweep (pushTo o (fun _ => onFull) update n.state) ids n.cells,
        ids.filterMap (doomedBy o (fun _ => onFull) update n)) :=
  foldl_visit o onFull update n ids hnd n.cells [] fun _ _ => rfl

/-- In the order of the model's own set the loop is `Node.fanOut`. -/
theorem fanOutOver_eq_fanOut (n : Node) (t : Topic) :
    (n.fanOutOver o onFull update (n.members t)).1 =
        (n.fanOut o (fun _ => onFull) t update).cells ∧
      n.doomed ++ (n.fanOutOver o onFull update (n.members t)).2 =
        (n.fanOut o (fun _ => onFull) t update).doomed := by
  rw [fanOutOver_eq o onFull update n (members_nodup n t)]
  exact ⟨rfl, rfl⟩

end Node

/-! ### Dropping a connection -/

namespace State

variable {limit : ℕ} {s : State}

theorem connections_removeAll : ∀ (ids : List SubscriberId) (s : State),
    (ids.foldl State.removeSubscriber s).connections = s.connections := by
  intro ids
  induction ids with
  | nil => intro s; rfl
  | cons id ids ih =>
    intro s
    rw [List.foldl_cons, ih, connections_removeSubscriber]

theorem connections_dropConnection (s : State) (c c' : ConnectionId) :
    (s.dropConnection c).2.connections.lookup c' =
      if c' = c then none else s.connections.lookup c' := by
  unfold State.dropConnection
  cases hc : s.connections.lookup c with
  | none =>
    show s.connections.lookup c' = _
    split
    · next h => rw [h]; exact hc
    · rfl
  | some connected =>
    simp only [connections_removeAll]
    exact Table.lookup_erase_eq c c' s.connections

/-- The subscribers a dropped connection takes along. -/
theorem mem_dropConnection (h : Coherent limit s) {c : ConnectionId} {id : SubscriberId} :
    id ∈ (s.dropConnection c).1 ↔ ∃ t, s.subscribers.lookup id = some ⟨t, c⟩ := by
  have hholds : id ∈ (s.dropConnection c).1 ↔ ∃ t, s.Holds c t id := by
    unfold State.dropConnection
    cases hc : s.connections.lookup c with
    | none => simp [Holds, hc]
    | some connected => simp [Holds, hc, Table.mem_values]
  rw [hholds]
  exact exists_congr fun t => ⟨h.subscriber, h.holds⟩

/-- They are distinct: a connection holds a subscriber under one topic. -/
theorem nodup_dropConnection (h : Coherent limit s) (c : ConnectionId) :
    (s.dropConnection c).1.Nodup := by
  unfold State.dropConnection
  cases hc : s.connections.lookup c with
  | none => exact List.nodup_nil
  | some connected =>
    refine List.Nodup.map_on ?_ (List.NodupKeys.nodup connected.topics.nodupKeys)
    rintro ⟨t, id⟩ hmem ⟨t', id'⟩ hmem' heq
    have heq' : id = id' := heq
    subst heq'
    have hs := h.subscriber (show s.Holds c t id from ⟨connected, hc, AList.mem_lookup_iff.mpr hmem⟩)
    have hs' := h.subscriber
      (show s.Holds c t' id from ⟨connected, hc, AList.mem_lookup_iff.mpr hmem'⟩)
    rw [hs] at hs'
    cases hs'
    rfl

/-- A removal leaves `last_order` alone wherever it leaves the topic. -/
theorem lastOrder_removeSubscriber {id : SubscriberId} {t : Topic} {e' : TopicState}
    (h : (s.removeSubscriber id).topics.lookup t = some e') :
    ∃ e, s.topics.lookup t = some e ∧ e.lastOrder = e'.lastOrder := by
  unfold removeSubscriber at h
  cases hsub : s.subscribers.lookup id with
  | none => rw [hsub] at h; exact ⟨e', h, rfl⟩
  | some sub =>
    simp only [hsub] at h
    cases ht : s.topics.lookup sub.topic with
    | none => simp only [ht] at h; exact ⟨e', h, rfl⟩
    | some entry =>
      simp only [ht] at h
      split at h
      · rw [Table.lookup_erase_eq] at h
        split at h
        · cases h
        · exact ⟨e', h, rfl⟩
      · rw [Table.lookup_insert_eq] at h
        split at h
        · next htopic =>
          cases h
          exact ⟨entry, by rw [htopic]; exact ht, rfl⟩
        · exact ⟨e', h, rfl⟩

theorem lastOrder_removeAll {t : Topic} {e' : TopicState} :
    ∀ (ids : List SubscriberId) (s : State),
      (ids.foldl State.removeSubscriber s).topics.lookup t = some e' →
      ∃ e, s.topics.lookup t = some e ∧ e.lastOrder = e'.lastOrder := by
  intro ids
  induction ids with
  | nil => intro s h; exact ⟨e', h, rfl⟩
  | cons id ids ih =>
    intro s h
    obtain ⟨e, he, hlast⟩ := ih _ h
    obtain ⟨e₀, he₀, hlast₀⟩ := lastOrder_removeSubscriber he
    exact ⟨e₀, he₀, hlast₀.trans hlast⟩

theorem lastOrder_dropConnection {c : ConnectionId} {t : Topic} {e' : TopicState}
    (h : (s.dropConnection c).2.topics.lookup t = some e') :
    ∃ e, s.topics.lookup t = some e ∧ e.lastOrder = e'.lastOrder := by
  unfold State.dropConnection at h
  cases hc : s.connections.lookup c with
  | none => rw [hc] at h; exact ⟨e', h, rfl⟩
  | some connected =>
    simp only [hc] at h
    have hlast := lastOrder_removeAll _ _ h
    exact hlast

/-- The same maps, whatever the order of their entries. -/
structure Agree (s s' : State) : Prop where
  /-- The connections and what they hold. -/
  connections : ∀ c, s.connections.lookup c = s'.connections.lookup c
  /-- The subscribers. -/
  subscribers : ∀ id, s.subscribers.lookup id = s'.subscribers.lookup id
  /-- The topics with their `last_order`. -/
  lastOrders : ∀ t, (s.topics.lookup t).map TopicState.lastOrder =
    (s'.topics.lookup t).map TopicState.lastOrder
  /-- Their members. -/
  members : ∀ t id, s.Member t id ↔ s'.Member t id

end State

namespace Node

/-! ### The disconnects -/

/-- What is left of `n` after the connections `cs` were dropped. -/
structure Dropped (limit : ℕ) (cs : List ConnectionId) (n n' : Node) : Prop where
  /-- The maps agree with one another. -/
  coherent : n'.state.Coherent limit
  /-- The connections are gone. -/
  connections : ∀ c, n'.state.connections.lookup c =
    if c ∈ cs then none else n.state.connections.lookup c
  /-- So are their subscribers. -/
  subscribers : ∀ id sub, n'.state.subscribers.lookup id = some sub ↔
    n.state.subscribers.lookup id = some sub ∧ sub.connection ∉ cs
  /-- The topics that are left have the order they had. -/
  lastOrders : ∀ t e', n'.state.topics.lookup t = some e' →
    ∃ e, n.state.topics.lookup t = some e ∧ e.lastOrder = e'.lastOrder
  /-- The lanes of those subscribers are closed, once. -/
  lanes : ∀ id sub, n.state.subscribers.lookup id = some sub →
    n'.cells id = if sub.connection ∈ cs then (n.cells id).close else n.cells id
  /-- No lane is closed that has no subscriber. -/
  others : ∀ id, n.state.subscribers.lookup id = none → n'.cells id = n.cells id
  /-- Nothing else changed. -/
  rest : { n' with state := n.state, cells := n.cells } = n

theorem dropped_nil {limit : ℕ} {n : Node} (h : n.state.Coherent limit) : Dropped limit [] n n where
  coherent := h
  connections := by intro c; simp
  subscribers := by intro id sub; simp
  lastOrders := fun t e' h => ⟨e', h, rfl⟩
  lanes := by intro id sub _; simp
  others := fun _ _ => rfl
  rest := rfl

section

variable {limit : ℕ} {n : Node} (h : n.state.Coherent limit) (c : ConnectionId)

include h

/-- Which subscribers are left after one connection was dropped. -/
theorem lookup_dropConnection_iff (id : SubscriberId) (sub : Subscriber) :
    (n.dropConnection c).state.subscribers.lookup id = some sub ↔
      n.state.subscribers.lookup id = some sub ∧ sub.connection ≠ c := by
  show (n.state.dropConnection c).2.subscribers.lookup id = some sub ↔ _
  have hmem : id ∈ (n.state.dropConnection c).1 ↔ _ := State.mem_dropConnection h
  rw [State.lookup_dropConnection]
  split
  · next hin =>
    obtain ⟨t, ht⟩ := hmem.mp hin
    rw [ht]
    refine iff_of_false (by intro h; cases h) ?_
    rintro ⟨hsub, hne⟩
    cases hsub
    exact hne rfl
  · next hout =>
    refine ⟨fun hsub => ⟨hsub, ?_⟩, And.left⟩
    rintro rfl
    exact hout (hmem.mpr ⟨sub.topic, hsub⟩)

/-- The lane of a subscriber after one connection was dropped. -/
theorem lane_dropConnection {id : SubscriberId} {sub : Subscriber}
    (hsub : n.state.subscribers.lookup id = some sub) :
    (n.dropConnection c).cells id =
      if sub.connection = c then (n.cells id).close else n.cells id := by
  show closeAll n.state (n.state.dropConnection c).1 n.cells id = _
  rw [closeAll, sweep_apply _ _ (State.nodup_dropConnection h c), hsub]
  obtain ⟨t, c'⟩ := sub
  have hmem : id ∈ (n.state.dropConnection c).1 ↔ c' = c := by
    rw [State.mem_dropConnection h, hsub]
    simp
  simp [hmem]

omit h in
theorem lane_dropConnection_of_none {id : SubscriberId}
    (hnone : n.state.subscribers.lookup id = none) :
    (n.dropConnection c).cells id = n.cells id := by
  show closeAll n.state (n.state.dropConnection c).1 n.cells id = _
  rw [closeAll, sweep_of_fixed]
  intro _ cell
  rw [hnone]
  rfl

end

/-- One more connection is dropped. -/
theorem Dropped.snoc {limit : ℕ} {cs : List ConnectionId} {n n' : Node} {c : ConnectionId}
    (h : Dropped limit cs n n') :
    Dropped limit (cs ++ [c]) n (n'.dropConnection c) where
  coherent := h.coherent.dropConnection c
  connections := by
    intro c'
    show (n'.state.dropConnection c).2.connections.lookup c' = _
    rw [State.connections_dropConnection, h.connections]
    by_cases hcc : c' = c
    · simp [hcc]
    · simp [hcc]
  subscribers := by
    intro id sub
    rw [lookup_dropConnection_iff h.coherent, h.subscribers, List.mem_append, List.mem_singleton,
      not_or, and_assoc]
  lastOrders := by
    intro t e' he'
    obtain ⟨e₁, he₁, hlast₁⟩ := State.lastOrder_dropConnection he'
    obtain ⟨e, he, hlast⟩ := h.lastOrders t e₁ he₁
    exact ⟨e, he, hlast.trans hlast₁⟩
  lanes := by
    intro id sub hsub
    by_cases hin : sub.connection ∈ cs
    · -- a lane closed before is not found in the map again
      have hnone : n'.state.subscribers.lookup id = none := by
        rw [Option.eq_none_iff_forall_ne_some]
        intro sub' hsub'
        obtain ⟨hold, hnot⟩ := (h.subscribers id sub').mp hsub'
        rw [hsub] at hold
        cases hold
        exact hnot hin
      rw [lane_dropConnection_of_none c hnone, h.lanes id sub hsub, if_pos hin,
        if_pos (List.mem_append_left _ hin)]
    · have hsub' := (h.subscribers id sub).mpr ⟨hsub, hin⟩
      rw [lane_dropConnection h.coherent c hsub', h.lanes id sub hsub, if_neg hin]
      simp [hin]
  others := by
    intro id hnone
    have hnone' : n'.state.subscribers.lookup id = none := by
      rw [Option.eq_none_iff_forall_ne_some]
      intro sub hsub
      rw [((h.subscribers id sub).mp hsub).1] at hnone
      cases hnone
    rw [lane_dropConnection_of_none c hnone']
    exact h.others id hnone
  rest := h.rest

/-- **The disconnects one after the other**: what they leave, and the links they shut
down. -/
theorem dropped_of_disconnects {limit : ℕ} {n : Node} (h : n.state.Coherent limit) :
    ∀ (cs : List ConnectionId), cs.Nodup →
      Dropped limit cs n (cs.foldl disconnect (n, [])).1 ∧
        (cs.foldl disconnect (n, [])).2 = cs.filterMap fun c =>
          (n.state.connections.lookup c).map fun connected => (c, connected.handle) := by
  intro cs
  induction cs using List.reverseRecOn with
  | nil => intro _; exact ⟨dropped_nil h, rfl⟩
  | append_singleton cs c ih =>
    intro hnd
    rw [List.nodup_append] at hnd
    have hc : c ∉ cs := fun hin => hnd.2.2 c hin c (List.mem_singleton_self c) rfl
    obtain ⟨hdropped, hlog⟩ := ih hnd.1
    rw [List.foldl_append, List.foldl_cons, List.foldl_nil]
    refine ⟨hdropped.snoc, ?_⟩
    simp only [disconnect]
    rw [hlog, hdropped.connections, if_neg hc, List.filterMap_append]
    cases hlookup : n.state.connections.lookup c <;> simp [hlookup]

/-! ### Two orders -/

/-- The same node, whatever the order of its maps. -/
structure Same (n n' : Node) : Prop where
  /-- The maps. -/
  state : n.state.Agree n'.state
  /-- Every lane. -/
  cells : n.cells = n'.cells
  /-- Everything else. -/
  rest : { n with state := n'.state, cells := n'.cells } = n'

theorem same_refl (n : Node) : n.Same n :=
  ⟨⟨fun _ => rfl, fun _ => rfl, fun _ => rfl, fun _ _ => Iff.rfl⟩, rfl, rfl⟩

/-- A topic is in the map exactly when it has a member. -/
theorem topic_iff_member {limit : ℕ} {s : State} (h : s.Coherent limit) (t : Topic) :
    (∃ e, s.topics.lookup t = some e) ↔ ∃ id, s.Member t id := by
  constructor
  · rintro ⟨e, he⟩
    obtain ⟨id, hid⟩ := List.exists_mem_of_ne_nil _ (h.nonempty t e he)
    exact ⟨id, e, he, AList.mem_keys.mpr hid⟩
  · rintro ⟨id, e, he, -⟩
    exact ⟨e, he⟩

/-- What a set of disconnects leaves does not depend on their order. -/
theorem same_of_dropped {limit : ℕ} {cs cs' : List ConnectionId} {n n₁ n₂ : Node}
    (hperm : cs.Perm cs') (h₁ : Dropped limit cs n n₁) (h₂ : Dropped limit cs' n n₂) :
    n₁.Same n₂ := by
  have hsub : ∀ id sub, n₁.state.subscribers.lookup id = some sub ↔
      n₂.state.subscribers.lookup id = some sub := by
    intro id sub
    rw [h₁.subscribers, h₂.subscribers, hperm.mem_iff]
  have hmember : ∀ t id, n₁.state.Member t id ↔ n₂.state.Member t id := by
    intro t id
    rw [h₁.coherent.members, h₂.coherent.members]
    exact exists_congr fun c => hsub id ⟨t, c⟩
  refine ⟨⟨?_, ?_, ?_, hmember⟩, ?_, ?_⟩
  · intro c
    rw [h₁.connections, h₂.connections]
    simp only [hperm.mem_iff]
  · exact fun id => Option.ext fun sub => hsub id sub
  · -- a topic is there while it has members, and its order is the one it started with
    intro t
    have htopic : (∃ e, n₁.state.topics.lookup t = some e) ↔
        ∃ e, n₂.state.topics.lookup t = some e := by
      rw [topic_iff_member h₁.coherent, topic_iff_member h₂.coherent]
      exact exists_congr fun id => hmember t id
    cases ht₁ : n₁.state.topics.lookup t with
    | none =>
      cases ht₂ : n₂.state.topics.lookup t with
      | none => rfl
      | some e₂ =>
        obtain ⟨e, he⟩ := htopic.mpr ⟨e₂, ht₂⟩
        rw [ht₁] at he
        cases he
    | some e₁ =>
      obtain ⟨e₂, ht₂⟩ := htopic.mp ⟨e₁, ht₁⟩
      obtain ⟨e, he, hlast₁⟩ := h₁.lastOrders t e₁ ht₁
      obtain ⟨e', he', hlast₂⟩ := h₂.lastOrders t e₂ ht₂
      rw [he] at he'
      cases he'
      rw [ht₂, Option.map_some, Option.map_some, ← hlast₁, hlast₂]
  · funext id
    cases hid : n.state.subscribers.lookup id with
    | none => rw [h₁.others id hid, h₂.others id hid]
    | some sub =>
      rw [h₁.lanes id sub hid, h₂.lanes id sub hid]
      simp only [hperm.mem_iff]
  · -- a disconnect writes the maps and the lanes and nothing else
    have hrest := h₁.rest.trans h₂.rest.symm
    have hset := congrArg (fun m : Node => { m with state := n₂.state, cells := n₂.cells }) hrest
    exact hset

/-! ### The members and their connections -/

variable {o : RegistryOptions} {onFull : DeliveryPolicy} {update : Frame}

section

variable {limit : ℕ} {n : Node} (h : n.state.Coherent limit) {t : Topic}

include h

/-- A member is a subscriber of the topic. -/
theorem subscriber_of_mem {id : SubscriberId} (hid : id ∈ n.members t) :
    ∃ c, n.state.subscribers.lookup id = some ⟨t, c⟩ := by
  rw [← h.members]
  unfold members at hid
  split at hid
  · cases hid
  · next entry he => exact ⟨entry, he, AList.mem_keys.mpr hid⟩

/-- A connection holds a topic once. -/
theorem subscriber_unique {id id' : SubscriberId} {c : ConnectionId}
    (hs : n.state.subscribers.lookup id = some ⟨t, c⟩)
    (hs' : n.state.subscribers.lookup id' = some ⟨t, c⟩) : id = id' := by
  obtain ⟨k, hk, hid⟩ := h.holds hs
  obtain ⟨k', hk', hid'⟩ := h.holds hs'
  rw [hk] at hk'
  cases hk'
  rw [hid] at hid'
  cases hid'
  rfl

omit h in
theorem connection_of_doomedBy {policy : SubscriberId → DeliveryPolicy} {id : SubscriberId}
    {c : ConnectionId} (hdoom : doomedBy o policy update n id = some c) :
    ∃ sub, n.state.subscribers.lookup id = some sub ∧ sub.connection = c := by
  unfold doomedBy at hdoom
  split at hdoom
  · cases hdoom
  · next sub hsub =>
    split at hdoom
    · cases hdoom
      exact ⟨sub, hsub, rfl⟩
    · cases hdoom

/-- The policy votes a connection off once. -/
theorem doomed_nodup {policy : SubscriberId → DeliveryPolicy} {ids : List SubscriberId}
    (hperm : ids.Perm (n.members t)) : (ids.filterMap (doomedBy o policy update n)).Nodup := by
  have hnodup : ids.Nodup := hperm.nodup_iff.mpr (members_nodup n t)
  unfold List.Nodup
  rw [List.pairwise_filterMap]
  refine List.Pairwise.imp_of_mem ?_ hnodup
  intro id id' hid hid' hne c hc c' hc' heq
  subst heq
  obtain ⟨sub, hsub, hconn⟩ := connection_of_doomedBy hc
  obtain ⟨sub', hsub', hconn'⟩ := connection_of_doomedBy hc'
  obtain ⟨d, hd⟩ := subscriber_of_mem h (hperm.mem_iff.mp hid)
  obtain ⟨d', hd'⟩ := subscriber_of_mem h (hperm.mem_iff.mp hid')
  rw [hd] at hsub
  rw [hd'] at hsub'
  cases hsub
  cases hsub'
  cases hconn
  cases hconn'
  exact hne (subscriber_unique h hd hd')

/-- And it is there to be dropped. -/
theorem connected_of_doomed {policy : SubscriberId → DeliveryPolicy} {ids : List SubscriberId}
    {c : ConnectionId} (hc : c ∈ ids.filterMap (doomedBy o policy update n)) :
    ∃ k, n.state.connections.lookup c = some k := by
  obtain ⟨id, -, hdoom⟩ := List.mem_filterMap.mp hc
  obtain ⟨⟨t', c'⟩, hsub, rfl⟩ := connection_of_doomedBy hdoom
  obtain ⟨k, hk, -⟩ := h.holds hsub
  exact ⟨k, hk⟩

end

/-! ### The whole `deliver` -/

/-- The node between the loop and the disconnects. -/
def pushed (o : RegistryOptions) (onFull : DeliveryPolicy) (t : Topic) (order : ℕ) (update : Frame)
    (n : Node) : Node :=
  { n with
    state := n.state.setLastOrder t fun last => max last order
    cells := sweep (pushTo o (fun _ => onFull) update n.state) (n.members t) n.cells }

/-- The connections the policy votes off, in the order `ids`. -/
def votes (o : RegistryOptions) (onFull : DeliveryPolicy) (update : Frame) (ids : List SubscriberId)
    (n : Node) : List ConnectionId :=
  ids.filterMap (doomedBy o (fun _ => onFull) update n)

/-- A `deliver` that builds its frame, in the order `ids`. -/
theorem deliverOver_eq {b : FrameBuilder} {n : Node} {t : Topic} {order : ℕ} {payload : Octets}
    (hd : n.draining = false) (hf : updateFrame b t order payload = .ok update)
    {ids : List SubscriberId} (hperm : ids.Perm (n.members t)) :
    n.deliverOver b o onFull t order payload ids =
      ⟨.ok (), ((n.votes o onFull update ids).foldl disconnect
          (n.pushed o onFull t order update, [])).1, n.votes o onFull update ids,
        ((n.votes o onFull update ids).foldl disconnect
          (n.pushed o onFull t order update, [])).2⟩ := by
  have hnodup : ids.Nodup := hperm.nodup_iff.mpr (members_nodup n t)
  -- a push reads and writes the lane of its own member only
  have hcells : sweep (pushTo o (fun _ => onFull) update n.state) ids n.cells =
      sweep (pushTo o (fun _ => onFull) update n.state) (n.members t) n.cells := by
    funext id
    rw [sweep_apply _ _ hnodup, sweep_apply _ _ (members_nodup n t)]
    simp only [hperm.mem_iff]
  have hloop := fanOutOver_eq o onFull update
    { n with state := n.state.setLastOrder t fun last => max last order } hnodup
  unfold deliverOver
  rw [if_neg (by rw [hd]; exact Bool.false_ne_true), hf]
  simp only [hloop, pushed, votes, ← hcells]
  rfl

/-- What such a `deliver` leaves, and the links it shuts down. -/
theorem dropped_of_deliverOver (o : RegistryOptions) (onFull : DeliveryPolicy) {b : FrameBuilder}
    {limit : ℕ} {n : Node} (h : n.state.Coherent limit) {t : Topic} {order : ℕ} {payload : Octets}
    (hd : n.draining = false) (hf : updateFrame b t order payload = .ok update)
    {ids : List SubscriberId} (hperm : ids.Perm (n.members t)) :
    Dropped limit (n.votes o onFull update ids) (n.pushed o onFull t order update)
        (n.deliverOver b o onFull t order payload ids).node ∧
      (n.deliverOver b o onFull t order payload ids).shutdowns =
        (n.votes o onFull update ids).filterMap fun c =>
          (n.state.connections.lookup c).map fun connected => (c, connected.handle) := by
  have hcoherent : (n.pushed o onFull t order update).state.Coherent limit :=
    h.setLastOrder t fun last => max last order
  rw [deliverOver_eq hd hf hperm]
  exact dropped_of_disconnects hcoherent _ (doomed_nodup h hperm)

/-- Nothing of a subscriber of another topic changes, unless its connection was voted
off. -/
theorem untouched_of_deliverOver {b : FrameBuilder} {limit : ℕ} {n : Node}
    (h : n.state.Coherent limit) {t : Topic} {order : ℕ} {payload : Octets}
    (hd : n.draining = false) (hf : updateFrame b t order payload = .ok update)
    {ids : List SubscriberId} (hperm : ids.Perm (n.members t)) {id : SubscriberId}
    {sub : Subscriber} (hsub : n.state.subscribers.lookup id = some sub) (ht : sub.topic ≠ t) :
    ((n.deliverOver b o onFull t order payload ids).node.state.subscribers.lookup id =
        if sub.connection ∈ n.votes o onFull update ids then none else some sub) ∧
      (n.deliverOver b o onFull t order payload ids).node.cells id =
        if sub.connection ∈ n.votes o onFull update ids then (n.cells id).close
        else n.cells id := by
  obtain ⟨hdropped, -⟩ := dropped_of_deliverOver o onFull h hd hf hperm
  have hlane : (n.pushed o onFull t order update).cells id = n.cells id := by
    refine sweep_of_fixed _ _ fun hid => ?_
    obtain ⟨c, hc⟩ := subscriber_of_mem h hid
    rw [hsub] at hc
    cases hc
    exact absurd rfl ht
  refine ⟨?_, ?_⟩
  · split
    · next hin =>
      rw [Option.eq_none_iff_forall_ne_some]
      intro sub' hsub'
      obtain ⟨hold, hnot⟩ := (hdropped.subscribers id sub').mp hsub'
      rw [show (n.pushed o onFull t order update).state.subscribers.lookup id = some sub from hsub]
        at hold
      cases hold
      exact hnot hin
    · next hout => exact (hdropped.subscribers id sub).mpr ⟨hsub, hout⟩
  · rw [hdropped.lanes id sub hsub, hlane]

/-- **`deliver` does not depend on the order of iteration.**  For every node whose maps
agree, a policy that looks at the topic and the drops so far, and any two orders of the
members of the topic: the result is the same; every lane, every map and everything else
ends the same; the same connections are voted off, each once, and each was there and is
dropped once; and a subscriber of another topic is removed and closed if its connection was
voted off and otherwise left as it was. -/
theorem fan_out_order_irrelevant (b : FrameBuilder) (o : RegistryOptions) (onFull : DeliveryPolicy)
    (limit : ℕ) (n : Node) (h : n.state.Coherent limit) (t : Topic) (order : ℕ) (payload : Octets)
    (ids ids' : List SubscriberId) (hperm : ids.Perm (n.members t))
    (hperm' : ids'.Perm (n.members t)) :
    (n.deliverOver b o onFull t order payload ids).result =
      (n.deliverOver b o onFull t order payload ids').result ∧
    (n.deliverOver b o onFull t order payload ids).node.Same
      (n.deliverOver b o onFull t order payload ids').node ∧
    ((n.deliverOver b o onFull t order payload ids).doomed.Perm
        (n.deliverOver b o onFull t order payload ids').doomed ∧
      (n.deliverOver b o onFull t order payload ids).doomed.Nodup ∧
      (n.deliverOver b o onFull t order payload ids).shutdowns.map Prod.fst =
        (n.deliverOver b o onFull t order payload ids).doomed ∧
      (n.deliverOver b o onFull t order payload ids).shutdowns.Perm
        (n.deliverOver b o onFull t order payload ids').shutdowns) ∧
    ∀ id sub, n.state.subscribers.lookup id = some sub → sub.topic ≠ t →
      ((n.deliverOver b o onFull t order payload ids).node.state.subscribers.lookup id =
          if sub.connection ∈ (n.deliverOver b o onFull t order payload ids).doomed then none
          else some sub) ∧
        (n.deliverOver b o onFull t order payload ids).node.cells id =
          if sub.connection ∈ (n.deliverOver b o onFull t order payload ids).doomed then
            (n.cells id).close
          else n.cells id := by
  cases hd : n.draining with
  | true =>
    simp only [deliverOver, hd, if_true]
    refine ⟨trivial, same_refl n, ⟨List.Perm.refl _, List.nodup_nil, rfl, List.Perm.refl _⟩, ?_⟩
    intro id sub hsub _
    simpa using hsub
  | false =>
    cases hf : updateFrame b t order payload with
    | error cause =>
      simp only [deliverOver, hd, hf, Bool.false_eq_true, if_false]
      refine ⟨trivial, same_refl n, ⟨List.Perm.refl _, List.nodup_nil, rfl, List.Perm.refl _⟩, ?_⟩
      intro id sub hsub _
      simpa using hsub
    | ok update =>
      obtain ⟨hdropped, hlog⟩ := dropped_of_deliverOver o onFull h hd hf hperm
      obtain ⟨hdropped', hlog'⟩ := dropped_of_deliverOver o onFull h hd hf hperm'
      have hdoomed : ∀ ids, ids.Perm (n.members t) →
          (n.deliverOver b o onFull t order payload ids).doomed = n.votes o onFull update ids := by
        intro ids hp
        rw [deliverOver_eq hd hf hp]
      -- a vote looks at one lane as it was before the call, so the order only permutes them
      have hvotes : (n.votes o onFull update ids).Perm (n.votes o onFull update ids') :=
        (hperm.trans hperm'.symm).filterMap _
      rw [hdoomed ids hperm, hdoomed ids' hperm', hlog, hlog']
      refine ⟨?_, same_of_dropped hvotes hdropped hdropped',
        ⟨hvotes, doomed_nodup h hperm, ?_, hvotes.filterMap _⟩, ?_⟩
      · rw [deliverOver_eq hd hf hperm, deliverOver_eq hd hf hperm']
      · rw [List.map_filterMap]
        refine (List.filterMap_congr (g := some) ?_).trans List.filterMap_some
        -- each of them is connected, so each disconnect shuts a link down
        intro c hc
        obtain ⟨k, hk⟩ := connected_of_doomed h hc
        simp [hk]
      · exact fun id sub hsub ht => untouched_of_deliverOver h hd hf hperm hsub ht

/-- Two connections subscribed to one topic. -/
def twoSubscribed (t : Topic) : List NodeAction :=
  subscribing t ++
    [.admitConnection ⟨2⟩ none, .insertConnection 0, .registerCheck ⟨2⟩ t, .registerBody]

/-- Queues without room and a policy that disconnects: both connections are voted off, in
either order. -/
theorem both_voted_off_in_either_order :
    ∃ n : Node, n.state.Coherent 64 ∧
      (n.deliverOver .total ⟨0, 64⟩ (fun _ _ => .disconnect) Topic.prices 1 []
        (n.members Topic.prices)).doomed.length = 2 ∧
      (n.deliverOver .total ⟨0, 64⟩ (fun _ _ => .disconnect) Topic.prices 1 []
        (n.members Topic.prices)).node.Same
        (n.deliverOver .total ⟨0, 64⟩ (fun _ _ => .disconnect) Topic.prices 1 []
          (n.members Topic.prices).reverse).node := by
  have hrun : (Transition.runs (step .total ⟨0, 64⟩) init (twoSubscribed Topic.prices)).map (fun n =>
      (n.deliverOver .total ⟨0, 64⟩ (fun _ _ => .disconnect) Topic.prices 1 []
        (n.members Topic.prices)).doomed.length) = some 2 := by
    decide +kernel
  obtain ⟨n, hn, htwo⟩ := Option.map_eq_some_iff.mp hrun
  have hcoherent : n.state.Coherent 64 := (inv_of_reachable (.of_runs hn)).coherent
  have hsame := fan_out_order_irrelevant .total ⟨0, 64⟩ (fun _ _ => .disconnect) 64 n hcoherent
    Topic.prices 1 [] _ _ (List.Perm.refl _) (List.reverse_perm _)
  exact ⟨n, hcoherent, htwo, hsame.2.1⟩

end Node
end Pubsub
end TightbeamExt
