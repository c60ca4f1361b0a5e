import TightbeamExt.Pubsub.Node

/-!
# What quiescing promises

`quiesce` sets the draining flag before it does the work the flag announces: a
caller that finds the flag set returns `Ok(0)` at once, while the caller that set
it may still be between its snapshot and its end frames, or may have left with an
error.

The steps of a node are first sorted by what they do to the lanes, the lock and
the call at work (`Effect`); the invariant of `quiesce` then has few cases.

## Main definitions

* `Calm n n'` — nothing entered a lane and the `quiesce` call did not move.
* `Effect b o n n' a` — everything a step can do.
* `SnapshotOf s snapshot` — the snapshot covers the subscribers left.
* `Signalled n id t` — the lane of `id` got its end frame.

## Main results

* `step_effect` — every step is one of `Effect`.
* `qinv_step` — the invariant of `quiesce` and its step lemma.
* `quiesce_ok_iff_signalled` — **when a returning `quiesce` has signalled everyone**.
-/

namespace TightbeamExt
namespace Pubsub

open Transition

namespace QuiescePc

/-- Some caller set the flag. -/
def begun : QuiescePc → Bool
  | .idle => false
  | _ => true

/-- The snapshot is taken. -/
def snapshotted : QuiescePc → Bool
  | .idle => false
  | .swapped => false
  | _ => true

/-- The end frames are enqueued. -/
def completed : QuiescePc → Bool
  | .done _ => true
  | _ => false

/-- The snapshot a call works on: the topics stamped already, then the others. -/
def snapshot : QuiescePc → List (Topic × List SubscriberId)
  | .reserving todo ends => ends.map (fun e => (e.topic, e.members)) ++ todo
  | _ => []

/-- The end frames built so far. -/
def ends : QuiescePc → List EndSignal
  | .reserving _ ends => ends
  | _ => []

end QuiescePc

/-- The steps that carry a stamp of the backplane. -/
def NodeAction.stamps : NodeAction → Bool
  | .deliverBody _ _ _ _ => true
  | .quiesceReserve _ => true
  | _ => false

namespace Node

/-! ### What a step does -/

/-- Nothing entered a lane, no subscriber came and `quiesce` did not move. -/
structure Calm (n n' : Node) : Prop where
  /-- The flag stays. -/
  draining : n'.draining = n.draining
  /-- The call stays where it is. -/
  quiesce : n'.quiesce = n.quiesce
  /-- The lock is taken only while the flag is unset. -/
  lock : n'.lock = n.lock ∨ n'.lock = .free ∨ n.draining = false
  /-- The subscribers left were there. -/
  subscribers : ∀ id sub,
    n'.state.subscribers.lookup id = some sub → n.state.subscribers.lookup id = some sub
  /-- No number is handed out. -/
  next : n'.nextSubscriber = n.nextSubscriber
  /-- No lane got anything. -/
  logs : ∀ id, Cell.SameLog (n.cells id) (n'.cells id)

/-- The flag, the lock and the call after a section that gives the lock back. -/
structure Unlocks (n n' : Node) : Prop where
  /-- The flag stays. -/
  draining : n'.draining = n.draining
  /-- The call stays where it is. -/
  quiesce : n'.quiesce = n.quiesce
  /-- The lock is free. -/
  lock : n'.lock = .free

/-- Everything a step can do. -/
inductive Effect (b : FrameBuilder) (n n' : Node) : NodeAction → Prop
  /-- A step without a stamp that enqueues nothing. -/
  | calm {a : NodeAction} : a.stamps = false → Calm n n' → Effect b n n' a
  /-- An update whose frame failed to build. -/
  | refuse {t : Topic} {order : ℕ} {payload : Octets} {policy : SubscriberId → DeliveryPolicy}
      {cause : TightBeamError} : updateFrame b t order payload = .error cause → Calm n n' →
      Effect b n n' (.deliverBody t order payload policy)
  /-- A new subscriber, with an empty lane. -/
  | register {c : ConnectionId} {t : Topic} : n.lock = .registering c t → Unlocks n n' →
      n'.state.subscribers = n.state.subscribers.insert ⟨n.nextSubscriber⟩ ⟨t, c⟩ →
      n'.nextSubscriber = n.nextSubscriber + 1 →
      (∀ id, id ≠ ⟨n.nextSubscriber⟩ → n'.cells id = n.cells id) →
      n'.cells ⟨n.nextSubscriber⟩ = Cell.new → Effect b n n' .registerBody
  /-- An update, pushed to every subscriber of its topic. -/
  | deliver {t : Topic} {order : ℕ} {payload : Octets} {policy : SubscriberId → DeliveryPolicy}
      {f : Frame} : n.lock = .delivering → Unlocks n n' →
      updateFrame b t order payload = .ok f →
      n'.state.subscribers = n.state.subscribers → n'.nextSubscriber = n.nextSubscriber →
      (∀ id c, n.state.subscribers.lookup id = some ⟨t, c⟩ →
        ∃ capacity, n'.cells id = ((n.cells id).push capacity (policy id) t f).1) →
      (∀ id, (∀ c, n.state.subscribers.lookup id ≠ some ⟨t, c⟩) → n'.cells id = n.cells id) →
      Effect b n n' (.deliverBody t order payload policy)
  /-- The flag is set. -/
  | swap : n' = { n with draining := true, quiesce := if n.draining then n.quiesce else .swapped } →
      Effect b n n' .quiesceSwap
  /-- The snapshot is taken. -/
  | snapshot : n.lock = .free → n.quiesce = .swapped →
      n' = { n with quiesce := .reserving n.snapshot [] } → Effect b n n' .quiesceSnapshot
  /-- A topic got its stamp and its end frame. -/
  | reserve {t : Topic} {members : List SubscriberId} {todo : List (Topic × List SubscriberId)}
      {ends : List EndSignal} {order : ℕ} {f : Frame} :
      n.quiesce = .reserving ((t, members) :: todo) ends → endFrame b t order = .ok f →
      n' = { n with quiesce := .reserving todo (ends ++ [⟨t, order, members, f⟩]) } →
      Effect b n n' (.quiesceReserve order)
  /-- An end frame failed to build. -/
  | fail {t : Topic} {members : List SubscriberId} {todo : List (Topic × List SubscriberId)}
      {ends : List EndSignal} {order : ℕ} {cause : TightBeamError} :
      n.quiesce = .reserving ((t, members) :: todo) ends →
      n' = { n with quiesce := .failed cause } → Effect b n n' (.quiesceReserve order)
  /-- The end frames are enqueued. -/
  | finish {ends : List EndSignal} : n.lock = .free → n.quiesce = .reserving [] ends →
      n' = n.finishAll ends → Effect b n n' .quiesceFinish

variable {b : FrameBuilder} {o : RegistryOptions} {n n' : Node}

/-- A step that touches neither maps nor lanes. -/
theorem calm_of_frame (hd : n'.draining = n.draining) (hq : n'.quiesce = n.quiesce)
    (hl : n'.lock = n.lock ∨ n'.lock = .free ∨ n.draining = false)
    (hs : n'.state.subscribers = n.state.subscribers) (hn : n'.nextSubscriber = n.nextSubscriber)
    (hc : n'.cells = n.cells) : Calm n n' where
  draining := hd
  quiesce := hq
  lock := hl
  subscribers := by rw [hs]; exact fun _ _ h => h
  next := hn
  logs := by rw [hc]; exact fun id => Cell.SameLog.refl _

theorem sameLog_closeAll (s : State) (ids : List SubscriberId) (cells : SubscriberId → Cell)
    (id : SubscriberId) : Cell.SameLog (cells id) (closeAll s ids cells id) := by
  have hkeep : (closeAll s ids cells id).history = (cells id).history := by
    refine sweep_congr Cell.history ?_ ids cells id
    intro k c
    split
    · exact Cell.history_close c
    · rfl
  exact ⟨by rw [hkeep], by rw [hkeep]⟩

theorem calm_unregister (c : ConnectionId) (t : Topic) : Calm n (n.unregister c t) := by
  have hshrink := (State.shrinks_unregister n.state c t).subscribers
  unfold unregister
  split
  · next s hs =>
    rw [hs] at hshrink
    exact ⟨rfl, rfl, .inl rfl, hshrink, rfl, fun id => Cell.SameLog.refl _⟩
  · next removed s hs =>
    rw [hs] at hshrink
    exact ⟨rfl, rfl, .inl rfl, hshrink, rfl, sameLog_closeAll _ _ _⟩

theorem calm_dropConnection (c : ConnectionId) : Calm n (n.dropConnection c) :=
  ⟨rfl, rfl, .inl rfl, (State.shrinks_dropConnection n.state c).subscribers, rfl,
    sameLog_closeAll _ _ _⟩

/-- A pop or a settled emit of one lane. -/
theorem calm_update (id : SubscriberId) {c : Cell} (hc : Cell.SameLog (n.cells id) c) :
    Calm n { n with cells := Function.update n.cells id c } where
  draining := rfl
  quiesce := rfl
  lock := .inl rfl
  subscribers := fun _ _ h => h
  next := rfl
  logs := by
    intro id'
    by_cases hid : id' = id
    · subst hid
      simpa using hc
    · simp only [Function.update_of_ne hid]
      exact Cell.SameLog.refl _

theorem mem_members (h : Inv o n) (t : Topic) (id : SubscriberId) :
    id ∈ n.members t ↔ ∃ c, n.state.subscribers.lookup id = some ⟨t, c⟩ := by
  rw [← h.coherent.members]
  unfold members State.Member
  cases n.state.topics.lookup t with
  | none => simp
  | some e => simp [AList.mem_keys]

theorem nodup_members (n : Node) (t : Topic) : (n.members t).Nodup := by
  unfold members
  split
  · exact List.nodup_nil
  · exact AList.keys_nodup _

/-- `fan_out` pushes to the subscribers of the topic, once each. -/
theorem cells_fanOut (h : Inv o n) (policy : SubscriberId → DeliveryPolicy) (t : Topic)
    (f : Frame) (id : SubscriberId) :
    (∀ c, n.state.subscribers.lookup id = some ⟨t, c⟩ →
      (fanOut o policy t f n).cells id =
        ((n.cells id).push o.queueCapacity (policy id) t f).1) ∧
    ((∀ c, n.state.subscribers.lookup id ≠ some ⟨t, c⟩) →
      (fanOut o policy t f n).cells id = n.cells id) := by
  have happly := sweep_apply (pushTo o policy f n.state) _ (nodup_members n t) n.cells id
  refine ⟨?_, ?_⟩
  · intro c hc
    show sweep _ _ _ _ = _
    rw [happly, if_pos ((mem_members h t id).mpr ⟨c, hc⟩), pushTo, hc]
  · intro hnone
    show sweep _ _ _ _ = _
    rw [happly, if_neg]
    intro hmem
    obtain ⟨c, hc⟩ := (mem_members h t id).mp hmem
    exact hnone c hc

theorem effect_deliverBody (h : Inv o n) (hlock : n.lock = .delivering) (t : Topic) (order : ℕ)
    (payload : Octets) (policy : SubscriberId → DeliveryPolicy) :
    Effect b n (n.deliverBody b o t order payload policy)
      (.deliverBody t order payload policy) := by
  unfold deliverBody
  split
  · next cause hcause => exact .refuse hcause (calm_of_frame rfl rfl (.inr (.inl rfl)) rfl rfl rfl)
  · next f hf =>
    have hm := h.setLastOrder t fun last => max last order
    refine .deliver hlock ⟨rfl, rfl, rfl⟩ hf rfl rfl ?_ ?_
    · intro id c hc
      exact ⟨o.queueCapacity, (cells_fanOut hm policy t f id).1 c hc⟩
    · intro id hnone
      exact (cells_fanOut hm policy t f id).2 hnone

theorem effect_registerBody {c : ConnectionId} {t : Topic} (hlock : n.lock = .registering c t) :
    Effect b n (n.registerBody o c t) .registerBody := by
  unfold registerBody
  split
  · next s hr =>
    refine .register hlock ⟨rfl, rfl, rfl⟩ (State.lookup_of_register hr).1 rfl ?_ ?_
    · intro id hid
      exact Function.update_of_ne hid _ _
    · exact Function.update_self _ _ _
  · exact .calm rfl (calm_of_frame rfl rfl (.inr (.inl rfl)) rfl rfl rfl)

/-- **Every step is one of `Effect`.** -/
theorem step_effect {a : NodeAction} (h : Inv o n) (hst : n.step b o a = some n') :
    Effect b n n' a := by
  cases fires_of_step hst with
  | admitConnection handle identity => exact .calm rfl (calm_of_frame rfl rfl (.inl rfl) rfl rfl rfl)
  | insertConnection a => exact .calm rfl (calm_of_frame rfl rfl (.inl rfl) rfl rfl rfl)
  | registerCheck c t _ hd => exact .calm rfl (calm_of_frame rfl rfl (.inr (.inr hd)) rfl rfl rfl)
  | registerBody c t hlock => exact effect_registerBody hlock
  | unregister c t => exact .calm rfl (calm_unregister c t)
  | dropConnection c => exact .calm rfl (calm_dropConnection c)
  | deliverCheck _ hd => exact .calm rfl (calm_of_frame rfl rfl (.inr (.inr hd)) rfl rfl rfl)
  | deliverBody t order payload policy hlock => exact effect_deliverBody h hlock t order payload policy
  | disconnect c =>
    obtain ⟨hd, hq, hl, hs, hn, hc⟩ :=
      calm_dropConnection (n := { n with doomed := n.doomed.erase c }) c
    exact .calm rfl ⟨hd, hq, hl, hs, hn, hc⟩
  | quiesceSwap => exact .swap rfl
  | quiesceSnapshot hfree hq => exact .snapshot hfree hq rfl
  | reserved f hq hf => exact .reserve hq hf rfl
  | failed cause hq => exact .fail hq rfl
  | quiesceFinish ends hfree hq => exact .finish hfree hq rfl
  | drainPop id => exact .calm rfl (calm_update id (Cell.sameLog_pop _))
  | drainSettle id => exact .calm rfl (calm_update id ⟨rfl, rfl⟩)

/-! ### The snapshot -/

/-- A snapshot the subscribers left are covered by: each is listed under its
topic, and under no other. -/
structure SnapshotOf (s : State) (snapshot : List (Topic × List SubscriberId)) : Prop where
  /-- Every subscriber is listed under its topic. -/
  covers : ∀ id t c, s.subscribers.lookup id = some ⟨t, c⟩ →
    ∃ members, (t, members) ∈ snapshot ∧ id ∈ members
  /-- A subscriber is listed only under its topic. -/
  own : ∀ e ∈ snapshot, ∀ id ∈ e.2, ∀ sub, s.subscribers.lookup id = some sub → sub.topic = e.1
  /-- No topic is listed twice. -/
  topics : (snapshot.map Prod.fst).Nodup
  /-- Nor is a member of a topic. -/
  members : ∀ e ∈ snapshot, e.2.Nodup

/-- Removals leave it covering. -/
theorem SnapshotOf.shrink {s s' : State} {snapshot : List (Topic × List SubscriberId)}
    (h : SnapshotOf s snapshot)
    (hs : ∀ id sub, s'.subscribers.lookup id = some sub → s.subscribers.lookup id = some sub) :
    SnapshotOf s' snapshot where
  covers := fun id t c hid => h.covers id t c (hs id _ hid)
  own := fun e he id hid sub hsub => h.own e he id hid sub (hs id sub hsub)
  topics := h.topics
  members := h.members

/-- What `quiesce` reads under the lock. -/
theorem snapshotOf_snapshot (h : Inv o n) : SnapshotOf n.state n.snapshot where
  covers := by
    intro id t c hid
    obtain ⟨e, he, hmem⟩ := (h.coherent.members id t).mpr ⟨c, hid⟩
    refine ⟨e.members.keys, ?_, hmem⟩
    exact List.mem_map.mpr ⟨⟨t, e⟩, AList.mem_lookup_iff.mp he, rfl⟩
  own := by
    intro entry hentry id hid sub hsub
    obtain ⟨⟨t, e⟩, he, rfl⟩ := List.mem_map.mp hentry
    obtain ⟨c, hc⟩ := (h.coherent.members id t).mp ⟨e, AList.mem_lookup_iff.mpr he, hid⟩
    rw [hc, Option.some.injEq] at hsub
    rw [← hsub]
  topics := by
    have hkeys := AList.keys_nodup n.state.topics
    simpa [snapshot, List.map_map, Function.comp_def, AList.keys, List.keys] using hkeys
  members := by
    intro entry hentry
    obtain ⟨⟨t, e⟩, -, rfl⟩ := List.mem_map.mp hentry
    exact AList.keys_nodup _

/-! ### Enqueueing the end frames -/

/-- The loop over the end frames, on the lanes. -/
def finishCells (s : State) (ends : List EndSignal) (cells : SubscriberId → Cell) :
    SubscriberId → Cell :=
  ends.foldl (fun cells e => sweep (finishTo s e.frame) e.members cells) cells

/-- It leaves alone whoever no end frame lists, or who is gone. -/
theorem finishCells_of_absent {s : State} {id : SubscriberId} :
    ∀ (ends : List EndSignal) (cells : SubscriberId → Cell),
      (∀ e ∈ ends, id ∈ e.members → s.subscribers.lookup id = none) →
      finishCells s ends cells id = cells id := by
  intro ends
  induction ends with
  | nil => intro cells _; rfl
  | cons e ends ih =>
    intro cells habsent
    show finishCells s ends (sweep (finishTo s e.frame) e.members cells) id = _
    rw [ih _ fun e' he' => habsent e' (List.mem_cons_of_mem e he')]
    refine sweep_of_fixed _ _ ?_
    intro hid c
    simp [finishTo, habsent e List.mem_cons_self hid]

/-- A subscriber left gets the end frame of its topic, once. -/
theorem finishCells_of_registered {s : State} {ends : List EndSignal}
    (h : SnapshotOf s (ends.map fun e => (e.topic, e.members))) (cells : SubscriberId → Cell)
    {id : SubscriberId} {t : Topic} {c : ConnectionId}
    (hid : s.subscribers.lookup id = some ⟨t, c⟩) :
    ∃ e ∈ ends, e.topic = t ∧ finishCells s ends cells id = (cells id).finish e.frame := by
  obtain ⟨members, hmem, hin⟩ := h.covers id t c hid
  obtain ⟨e, he, heq⟩ := List.mem_map.mp hmem
  simp only [Prod.mk.injEq] at heq
  obtain ⟨rfl, rfl⟩ := heq
  refine ⟨e, he, rfl, ?_⟩
  obtain ⟨before, after, rfl⟩ := List.append_of_mem he
  -- every other entry of the list is of another topic
  have hother : ∀ e' ∈ before ++ after, id ∉ e'.members := by
    intro e' he' hid'
    have he'' : e' ∈ before ++ e :: after := by
      simp only [List.mem_append, List.mem_cons] at he' ⊢
      tauto
    have htopic : e.topic = e'.topic :=
      h.own (e'.topic, e'.members) (List.mem_map.mpr ⟨e', he'', rfl⟩) id hid' _ hid
    have hnd := h.topics
    simp only [List.map_append, List.map_cons, List.map_map, Function.comp_def] at hnd
    rw [List.nodup_middle, List.nodup_cons, ← List.map_append] at hnd
    exact hnd.1 (List.mem_map.mpr ⟨e', he', htopic.symm⟩)
  have hsplit : finishCells s (before ++ e :: after) cells =
      finishCells s after (sweep (finishTo s e.frame) e.members (finishCells s before cells)) := by
    simp [finishCells]
  have hnodup : e.members.Nodup := h.members _ hmem
  rw [hsplit, finishCells_of_absent _ _ fun e' he' hid' =>
    absurd hid' (hother e' (List.mem_append_right before he')), sweep_apply _ _ hnodup,
    if_pos hin, finishCells_of_absent _ _ fun e' he' hid' =>
    absurd hid' (hother e' (List.mem_append_left after he'))]
  simp [finishTo, hid]

theorem subscribers_finishAll (n : Node) (ends : List EndSignal) :
    (n.finishAll ends).state.subscribers = n.state.subscribers := by
  have hloop : ∀ (ends : List EndSignal) (s : State),
      (ends.foldl (fun s e => s.setLastOrder e.topic fun _ => e.order) s).subscribers =
        s.subscribers := by
    intro ends
    induction ends with
    | nil => intro s; rfl
    | cons e ends ih => intro s; exact ih _
  exact hloop ends n.state

/-! ### The invariant of `quiesce` -/

/-- The lane of `id` got the end frame of `t`. -/
def Signalled (n : Node) (id : SubscriberId) (t : Topic) : Prop :=
  ∃ f, .completion f ∈ (n.cells id).history.enqueued ∧ f.id = utf8 (endPrefix ++ t.name)

/-- What holds of the flag, the call at work and the lanes between any two
steps. -/
structure QuiesceInv (b : FrameBuilder) (n : Node) : Prop where
  /-- The flag is set from the swap on. -/
  flag : n.draining = n.quiesce.begun
  /-- From the snapshot on no `register` and no `deliver` is past its check. -/
  idle : n.quiesce.snapshotted = true → n.lock = .free
  /-- The snapshot covers the subscribers left. -/
  covered : ∀ todo ends, n.quiesce = .reserving todo ends → SnapshotOf n.state n.quiesce.snapshot
  /-- The end frames are those of their topics. -/
  frames : ∀ e ∈ n.quiesce.ends, endFrame b e.topic e.order = .ok e.frame
  /-- Lanes nobody owns yet are empty. -/
  fresh : ∀ id : SubscriberId, n.nextSubscriber ≤ id.val → Cell.SameLog Cell.new (n.cells id)
  /-- Until the end frames are enqueued the lanes hold updates. -/
  silent : n.quiesce.completed = false →
    ∀ id, ∀ s ∈ (n.cells id).history.enqueued, s.isUpdate = true
  /-- An end frame is the last frame of its lane. -/
  last : ∀ id, ∀ s ∈ (n.cells id).history.enqueued.dropLast, s.isUpdate = true
  /-- Then every subscriber left has its own. -/
  signalled : n.quiesce.completed = true →
    ∀ id t c, n.state.subscribers.lookup id = some ⟨t, c⟩ → n.Signalled id t

theorem qinv_init (b : FrameBuilder) : QuiesceInv b init where
  flag := rfl
  idle := by intro h; cases h
  covered := by intro todo ends h; cases h
  frames := by intro e he; simp [init, QuiescePc.ends] at he
  fresh := fun _ _ => Cell.SameLog.refl _
  silent := by intro _ id s hs; simp [init, Cell.new] at hs
  last := by intro id s hs; simp [init, Cell.new] at hs
  signalled := by intro h; cases h

/-- The flag is set from the snapshot on. -/
theorem QuiesceInv.draining_of_snapshotted (h : QuiesceInv b n)
    (hs : n.quiesce.snapshotted = true) : n.draining = true := by
  rw [h.flag]
  revert hs
  cases n.quiesce <;> simp [QuiescePc.begun, QuiescePc.snapshotted]

theorem Signalled.of_sameLog {id : SubscriberId} {t : Topic} (h : n.Signalled id t)
    (hlog : Cell.SameLog (n.cells id) (n'.cells id)) : n'.Signalled id t := by
  obtain ⟨f, hf, hid⟩ := h
  exact ⟨f, by rw [hlog.enqueued]; exact hf, hid⟩

theorem QuiesceInv.calm (h : QuiesceInv b n) (hc : Calm n n') : QuiesceInv b n' where
  flag := by rw [hc.draining, hc.quiesce]; exact h.flag
  idle := by
    rw [hc.quiesce]
    intro hs
    rcases hc.lock with hl | hl | hl
    · rw [hl]; exact h.idle hs
    · exact hl
    · rw [h.draining_of_snapshotted hs] at hl; cases hl
  covered := by
    rw [hc.quiesce]
    exact fun todo ends hq => (h.covered todo ends hq).shrink hc.subscribers
  frames := by rw [hc.quiesce]; exact h.frames
  fresh := by
    rw [hc.next]
    intro id hid
    have hlog := hc.logs id
    have hold := h.fresh id hid
    exact ⟨hlog.handed.trans hold.handed, hlog.enqueued.trans hold.enqueued⟩
  silent := by
    rw [hc.quiesce]
    intro hq id s hs
    rw [(hc.logs id).enqueued] at hs
    exact h.silent hq id s hs
  last := by
    intro id s hs
    rw [(hc.logs id).enqueued] at hs
    exact h.last id s hs
  signalled := by
    rw [hc.quiesce]
    intro hq id t c hid
    exact (h.signalled hq id t c (hc.subscribers id _ hid)).of_sameLog (hc.logs id)

/-- Before the snapshot no end frame is anywhere. -/
theorem QuiesceInv.not_snapshotted (h : QuiesceInv b n) (hlock : n.lock ≠ .free) :
    n.quiesce.snapshotted = false := by
  by_contra hs
  exact hlock (h.idle (by simpa using hs))

theorem not_completed_of_not_snapshotted {q : QuiescePc} (h : q.snapshotted = false) :
    q.completed = false := by
  revert h
  cases q <;> simp [QuiescePc.snapshotted, QuiescePc.completed]

/-- A step taken with the lock held for `register` or `deliver` comes before the
snapshot: it only has to keep the lanes free of end frames. -/
theorem QuiesceInv.unlock (h : QuiesceInv b n) (hlock : n.lock ≠ .free) (hu : Unlocks n n')
    (hfresh : ∀ id : SubscriberId, n'.nextSubscriber ≤ id.val →
      Cell.SameLog Cell.new (n'.cells id))
    (hupd : ∀ id, ∀ s ∈ (n'.cells id).history.enqueued, s.isUpdate = true) :
    QuiesceInv b n' := by
  have hsnap := h.not_snapshotted hlock
  have hcomp := not_completed_of_not_snapshotted hsnap
  exact {
    flag := by rw [hu.draining, hu.quiesce]; exact h.flag
    idle := fun _ => hu.lock
    covered := by
      intro todo ends hq
      rw [hu.quiesce] at hq
      rw [hq] at hsnap
      cases hsnap
    frames := by rw [hu.quiesce]; exact h.frames
    fresh := hfresh
    silent := fun _ => hupd
    last := fun id s hs => hupd id s (List.dropLast_subset _ hs)
    signalled := by
      intro hq
      rw [hu.quiesce, hcomp] at hq
      cases hq }

/-- The call at work moves on ahead of the end frames, with maps and lanes as they
are. -/
theorem QuiesceInv.advance (h : QuiesceInv b n) {d : Bool} {q : QuiescePc} (hflag : d = q.begun)
    (hlock : q.snapshotted = true → n.lock = .free)
    (hcovered : ∀ todo ends, q = .reserving todo ends → SnapshotOf n.state q.snapshot)
    (hframes : ∀ e ∈ q.ends, endFrame b e.topic e.order = .ok e.frame)
    (hbefore : n.quiesce.completed = false) (hafter : q.completed = false) :
    QuiesceInv b { n with draining := d, quiesce := q } where
  flag := hflag
  idle := hlock
  covered := hcovered
  frames := hframes
  fresh := h.fresh
  silent := fun _ => h.silent hbefore
  last := h.last
  signalled := by
    intro hq
    rw [hafter] at hq
    cases hq

/-- The call sets the flag, or finds it set and leaves. -/
theorem QuiesceInv.swap (h : QuiesceInv b n) :
    QuiesceInv b
      { n with draining := true, quiesce := if n.draining then n.quiesce else .swapped } := by
  have hflag := h.flag
  cases hd : n.draining with
  | true =>
    rw [hd] at hflag
    simp only [if_true]
    exact ⟨hflag, h.idle, h.covered, h.frames, h.fresh, h.silent, h.last, h.signalled⟩
  | false =>
    have hbefore : n.quiesce.completed = false := by
      rw [hd] at hflag
      revert hflag
      cases n.quiesce <;> simp [QuiescePc.begun, QuiescePc.completed]
    simp only [Bool.false_eq_true, if_false]
    refine h.advance rfl ?_ ?_ ?_ hbefore rfl
    · intro hs; cases hs
    · intro todo ends hq; cases hq
    · intro e he; simp [QuiescePc.ends] at he

/-- The end frames are enqueued: every subscriber of the snapshot that is left gets
the one of its topic, as the first end frame of its lane. -/
theorem QuiesceInv.finish {ends : List EndSignal} (h : QuiesceInv b n) (hi : Inv o n)
    (hlock : n.lock = .free) (hq : n.quiesce = .reserving [] ends) :
    QuiesceInv b (n.finishAll ends) := by
  have hcov : SnapshotOf n.state (ends.map fun e => (e.topic, e.members)) := by
    have hc := h.covered _ _ hq
    rw [hq] at hc
    simpa [QuiescePc.snapshot] using hc
  have hsilent := h.silent (by rw [hq]; rfl)
  have hcells : ∀ id, (n.finishAll ends).cells id = finishCells n.state ends n.cells id :=
    fun _ => rfl
  exact {
    flag := by have := h.flag; rw [hq] at this; exact this
    idle := fun _ => hlock
    covered := by intro _ _ hs; cases hs
    frames := by intro e he; simp [finishAll, QuiescePc.ends] at he
    fresh := by
      intro id hid
      rw [hcells, finishCells_of_absent]
      · exact h.fresh id hid
      · intro _ _ _
        by_contra hne
        obtain ⟨sub, hsub⟩ := Option.ne_none_iff_exists'.mp hne
        exact absurd hid (not_le.mpr (hi.subscribers id sub hsub))
    silent := by intro hs; cases hs
    last := by
      intro id s hs
      rw [hcells] at hs
      cases hsub : n.state.subscribers.lookup id with
      | none =>
        rw [finishCells_of_absent _ _ fun _ _ _ => hsub] at hs
        exact h.last id s hs
      | some sub =>
        obtain ⟨t, c⟩ := sub
        obtain ⟨e, -, -, hfin⟩ := finishCells_of_registered hcov n.cells hsub
        rw [hfin, Cell.enqueued_finish, List.dropLast_concat] at hs
        exact hsilent id s hs
    signalled := by
      intro _ id t c hid
      rw [subscribers_finishAll] at hid
      obtain ⟨e, he, rfl, hfin⟩ := finishCells_of_registered hcov n.cells hid
      refine ⟨e.frame, ?_, id_of_endFrame (h.frames e (by rw [hq]; exact he))⟩
      rw [hcells, hfin, Cell.enqueued_finish]
      exact List.mem_append_right _ List.mem_cons_self }

/-- **The step lemma.** -/
theorem qinv_step {a : NodeAction} (hi : Inv o n) (h : QuiesceInv b n)
    (hst : n.step b o a = some n') : QuiesceInv b n' := by
  cases step_effect hi hst with
  | calm _ hc => exact h.calm hc
  | refuse _ hc => exact h.calm hc
  | register hlock hu hsub hnext hcells hnew =>
    have hbusy : n.lock ≠ .free := by rw [hlock]; exact fun hf => by cases hf
    have hsilent := h.silent (not_completed_of_not_snapshotted (h.not_snapshotted hbusy))
    -- under the lock there is no snapshot yet, so no lane has an end frame
    refine h.unlock hbusy hu ?_ ?_
    · intro id hid
      rw [hnext] at hid
      have hne : id ≠ ⟨n.nextSubscriber⟩ := by
        rintro rfl
        exact absurd hid (by simp)
      rw [hcells id hne]
      exact h.fresh id (by omega)
    · intro id
      by_cases hid : id = ⟨n.nextSubscriber⟩
      · rw [hid, hnew]
        intro s hs
        simp [Cell.new] at hs
      · rw [hcells id hid]
        exact hsilent id
  | deliver hlock hu hf hsub hnext hpush hkeep =>
    have hbusy : n.lock ≠ .free := by rw [hlock]; exact fun hf => by cases hf
    have hsilent := h.silent (not_completed_of_not_snapshotted (h.not_snapshotted hbusy))
    rename_i t order payload policy f
    refine h.unlock hbusy hu ?_ ?_
    · -- an unowned lane has no subscriber, so nothing is pushed to it
      intro id hid
      rw [hnext] at hid
      rw [hkeep id fun c hc => absurd (hi.subscribers id _ hc) (by omega)]
      exact h.fresh id hid
    · intro id
      by_cases hid : ∃ c, n.state.subscribers.lookup id = some ⟨t, c⟩
      · obtain ⟨c, hc⟩ := hid
        obtain ⟨capacity, hcell⟩ := hpush id c hc
        rw [hcell]
        exact Cell.isUpdate_push (hsilent id)
      · rw [hkeep id fun c hc => hid ⟨c, hc⟩]
        exact hsilent id
  | swap hn => rw [hn]; exact h.swap
  | snapshot hlock hq hn =>
    have hflag := h.flag
    rw [hq] at hflag
    rw [hn]
    refine h.advance hflag (fun _ => hlock) ?_ ?_ (by rw [hq]; rfl) rfl
    · intro todo ends _
      simpa [QuiescePc.snapshot] using snapshotOf_snapshot hi
    · intro e he; simp [QuiescePc.ends] at he
  | reserve hq hf hn =>
    have hflag := h.flag
    have hcov := h.covered _ _ hq
    rw [hq] at hflag hcov
    rw [hn]
    refine h.advance hflag (fun _ => h.idle (by rw [hq]; rfl)) ?_ ?_ (by rw [hq]; rfl) rfl
    · intro _ _ _
      simpa [QuiescePc.snapshot] using hcov
    · intro e he
      simp only [QuiescePc.ends, List.mem_append, List.mem_singleton] at he
      rcases he with he | rfl
      · exact h.frames e (by rw [hq]; exact he)
      · exact hf
  | fail hq hn =>
    have hflag := h.flag
    rw [hq] at hflag
    rw [hn]
    refine h.advance hflag (fun _ => h.idle (by rw [hq]; rfl)) ?_ ?_ (by rw [hq]; rfl) rfl
    · intro _ _ hs; cases hs
    · intro e he; simp [QuiescePc.ends] at he
  | finish hlock hq hn => rw [hn]; exact h.finish hi hlock hq

/-- Both invariants hold in every reachable state. -/
theorem qinv_of_reachable (h : Reachable (step b o) init n) : Inv o n ∧ QuiesceInv b n :=
  h.invariant (I := fun n => Inv o n ∧ QuiesceInv b n) ⟨inv_init o, qinv_init b⟩
    fun _ _ _ _ hi _ hst => ⟨inv_step hi.1 hst, qinv_step hi.1 hi.2 hst⟩

/-! ### Returning -/

/-- A `quiesce` call returns `Ok` with this step: it found the flag set, or it
enqueued the end frames. -/
def ReturnsOk (n : Node) : NodeAction → Bool
  | .quiesceSwap => n.draining
  | .quiesceFinish => true
  | _ => false

/-- The step enqueues the end frames. -/
def Finishes : NodeAction → Bool
  | .quiesceFinish => true
  | _ => false

/-- Every subscriber registered has its end frame. -/
def AllSignalled (n : Node) : Prop :=
  ∀ id t c, n.state.subscribers.lookup id = some ⟨t, c⟩ → n.Signalled id t

/-- While the lanes hold updates only, nobody is signalled. -/
theorem not_signalled (h : QuiesceInv b n) (hq : n.quiesce.completed = false) (id : SubscriberId)
    (t : Topic) : ¬ n.Signalled id t := by
  rintro ⟨f, hf, -⟩
  have := h.silent hq id _ hf
  cases this

/-- **When a returning `quiesce` has signalled everyone.**  At every `Ok` return,
every registered subscriber has its end frame enqueued exactly if the returning
call enqueued the end frames itself, an earlier one had done so, or no subscriber
is registered. -/
theorem quiesce_ok_iff_signalled (b : FrameBuilder) (o : RegistryOptions) (n n' : Node)
    (a : NodeAction) (hreach : Reachable (step b o) init n) (hst : n.step b o a = some n')
    (hok : n.ReturnsOk a = true) :
    n'.AllSignalled ↔
      Finishes a = true ∨ n.quiesce.completed = true ∨
        ∀ id, n.state.subscribers.lookup id = none := by
  obtain ⟨hi, hq⟩ := qinv_of_reachable hreach
  have hq' := qinv_step hi hq hst
  cases a with
  | quiesceFinish =>
    simp only [step] at hst
    split at hst
    · cases hst
      exact ⟨fun _ => .inl rfl, fun _ => hq'.signalled rfl⟩
    · cases hst
  | quiesceSwap =>
    have hd : n.draining = true := hok
    simp only [step, hd, if_true, Option.some.injEq] at hst
    constructor
    · intro hall
      cases hc : n.quiesce.completed with
      | true => exact .inr (.inl rfl)
      | false =>
        -- before the end frames no subscriber can be signalled, so there is none
        refine .inr (.inr fun id => ?_)
        by_contra hne
        obtain ⟨⟨t, c⟩, hsub⟩ := Option.ne_none_iff_exists'.mp hne
        have hc' : n'.quiesce.completed = false := by rw [← hst]; exact hc
        exact not_signalled hq' hc' id t (hall id t c (by rw [← hst]; exact hsub))
    · rintro (hf | hc | hnone)
      · cases hf
      · exact hq'.signalled (by rw [← hst]; exact hc)
      · intro id t c hid
        rw [← hst] at hid
        simp only at hid
        rw [hnone id] at hid
        cases hid
  | _ => cases hok

/-- One subscriber, completed by the call that set the flag. -/
def completing (t : Topic) : List NodeAction :=
  subscribing t ++ [.quiesceSwap, .quiesceSnapshot, .quiesceReserve 1]

/-- The call that enqueues the end frame returns with its subscriber signalled. -/
theorem quiesce_ok_after_finish :
    ∃ n n', Reachable (step .total .default) init n ∧
      n.step .total .default .quiesceFinish = some n' ∧
      n'.state.subscribers.lookup ⟨1⟩ = some ⟨Topic.prices, ⟨1⟩⟩ ∧ n'.AllSignalled := by
  obtain ⟨n, hrun⟩ : ∃ n, runs (step .total .default) init (completing Topic.prices) = some n :=
    ⟨_, rfl⟩
  obtain ⟨n', hst⟩ : ∃ n', n.step .total .default .quiesceFinish = some n' := by
    cases hrun; exact ⟨_, rfl⟩
  refine ⟨n, n', .of_runs hrun, hst, ?_, ?_⟩
  · cases hrun; cases hst; rfl
  · exact (quiesce_ok_iff_signalled .total .default n n' .quiesceFinish (.of_runs hrun) hst rfl).mpr
      (.inl rfl)

/-- **A second call returns `Ok` with nobody signalled**: it finds the flag the
first call has set and leaves before the first call has enqueued anything. -/
theorem quiesce_ok_unsignalled :
    ¬ ∀ (b : FrameBuilder) (o : RegistryOptions) (n n' : Node) (a : NodeAction),
      Reachable (step b o) init n → n.step b o a = some n' → n.ReturnsOk a = true →
      n'.AllSignalled := by
  intro h
  obtain ⟨n, hrun⟩ : ∃ n, runs (step .total .default) init
      (subscribing Topic.prices ++ [.quiesceSwap]) = some n := ⟨_, rfl⟩
  obtain ⟨n', hst⟩ : ∃ n', n.step .total .default .quiesceSwap = some n' := by
    cases hrun; exact ⟨_, rfl⟩
  have hall := h .total .default n n' .quiesceSwap (.of_runs hrun) hst (by cases hrun; rfl)
  obtain ⟨f, hf, -⟩ := hall ⟨1⟩ Topic.prices ⟨1⟩ (by cases hrun; cases hst; rfl)
  have hempty : (n'.cells ⟨1⟩).history.enqueued = [] := by cases hrun; cases hst; rfl
  rw [hempty] at hf
  cases hf

end Node
end Pubsub
end TightbeamExt
