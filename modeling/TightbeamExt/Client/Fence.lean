import TightbeamExt.Client.Channel
import TightbeamExt.Client.Removal
import TightbeamExt.Client.Settlement

/-!
# Unsubscribe and completion as a fence

A delivery asks whether its entry is mapped after every await: behind the gap report,
behind the decode and behind the handler.  An entry that left the map is never mapped again
— a later subscription under the same name has an entry of its own — so its observers are
not called, its gate keeps its baseline, and its channel, finished with the removal, takes
nothing in.

`Iteration` runs the manager with the way each entry delivers: an entry in iterator mode has
a pull channel, the others call their handler.  What reaches the application is on record.

## Main definitions

* `Iteration`, `Iteration.step` — the manager with channels, and its steps.
* `Event`, `Event.reaches` — what is on record, and what the fence is about.
* `SubscriptionManager.Gone` — an entry that was built and is not mapped.
* `Iteration.Drains` — what may happen to an entry behind the fence.

## Main results

* `removal_is_a_fence` — **unsubscribe and completion are a fence**.
-/

namespace TightbeamExt
namespace Client

open Transition Pubsub

/-! ### The map along a step -/

namespace SubscriptionManager

/-- The entry was built and is not mapped. -/
def Gone (m : SubscriptionManager) (e : EntryId) : Prop :=
  e.val < m.nextEntry ∧ ∀ t, m.entries.lookup t ≠ some e

/-- What a step does to the map and the record of removals. -/
structure Remaps (m : SubscriptionManager) (a : Action) (m' : SubscriptionManager) : Prop where
  /-- Entries are only built. -/
  built : m.nextEntry ≤ m'.nextEntry
  /-- Mapped is what was mapped, or is new. -/
  mapped : ∀ t e, m'.entries.lookup t = some e → m.entries.lookup t = some e ∨ e.val = m.nextEntry
  /-- A removal on record is old, or its entry was mapped and is not now. -/
  removed : ∀ r ∈ m'.removed, r ∈ m.removed ∨
    m.entries.lookup r.topic = some r.entry ∧ m'.entries.lookup r.topic ≠ some r.entry ∧
      (r.cause = .unsubscribed → a = .unsubscribe r.topic) ∧
      (r.cause = .completed → ∃ c, a = .complete c r.topic)

theorem Remaps.of_same {m m' : SubscriptionManager} {a : Action} (hnext : m'.nextEntry = m.nextEntry)
    (hentries : m'.entries = m.entries) (hremoved : m'.removed = m.removed) : Remaps m a m' where
  built := Nat.le_of_eq hnext.symm
  mapped := by rw [hentries]; exact fun _ _ he => Or.inl he
  removed := by rw [hremoved]; exact fun _ hr => Or.inl hr

theorem remaps_delete {m m' : SubscriptionManager} {a : Action} {topic : TopicName} {cause : Cause}
    (hnext : m'.nextEntry = (m.delete topic cause).nextEntry)
    (hentries : m'.entries = (m.delete topic cause).entries)
    (hremoved : m'.removed = (m.delete topic cause).removed)
    (hunsub : cause = .unsubscribed → a = .unsubscribe topic)
    (hcomplete : cause = .completed → ∃ c, a = .complete c topic) : Remaps m a m' where
  built := Nat.le_of_eq (hnext.trans (sameBooks_delete topic cause m).nextEntry).symm
  mapped := by
    intro t e he
    rw [hentries] at he
    exact Or.inl ((Advances.delete m topic cause).entries t e he)
  removed := by
    intro r hr
    rw [hremoved, removed_delete, List.mem_append] at hr
    rcases hr with hr | hr
    · exact Or.inl hr
    · right
      cases he : m.entries.lookup topic with
      | none => simp [he] at hr
      | some e =>
        obtain rfl : r = ⟨topic, e, cause, m.client⟩ := by simpa [he] using hr
        refine ⟨he, ?_, hunsub, hcomplete⟩
        rw [hentries, lookup_delete, if_pos rfl]
        simp

theorem remaps_subscribe (m : SubscriptionManager) (topic : TopicName) (onGap : Bool) :
    Remaps m (.subscribe topic onGap) (m.subscribe topic onGap) := by
  unfold subscribe
  split
  · exact Remaps.of_same rfl rfl rfl
  · refine ⟨Nat.le_succ _, ?_, fun r hr => Or.inl hr⟩
    intro t e he
    rw [Table.lookup_insert_eq] at he
    split at he
    · exact Or.inr (by rw [← Option.some.inj he])
    · exact Or.inl he

theorem remaps_endRefused (m : SubscriptionManager) (i : ℕ) :
    Remaps m (.endRefused i) (m.endRefused i) := by
  have hb := sameBooks_foldl_endOne (m.refusals i) m
  obtain ⟨new, hnew, hsound, _⟩ := removed_foldl_endOne (m.refusals i) m
  refine ⟨Nat.le_of_eq hb.nextEntry.symm, ?_, ?_⟩
  · intro t e he
    exact Or.inl ((lookup_foldl_endOne _ m t e).mp he).1
  · intro x hx
    have hx' : x ∈ m.removed ++ new := hnew ▸ hx
    rcases List.mem_append.mp hx' with hx' | hx'
    · exact Or.inl hx'
    · obtain ⟨r, hr, hlook, rfl⟩ := hsound x hx'
      refine Or.inr ⟨hlook, ?_, by simp, by simp⟩
      intro hstill
      exact ((lookup_foldl_endOne _ m r.topic r.entry).mp hstill).2 r hr rfl rfl

theorem remaps_resume {m m' : SubscriptionManager} {i : ℕ} {k : Task} (h : m.resume i k = some m') :
    Remaps m (.resume i) m' := by
  rcases resume_cases h with ⟨t, e, c, o, rfl, rfl⟩ | ⟨t, c, o, rfl, rfl⟩ |
    ⟨g, t, e, c, o, rfl, rfl⟩ | ⟨via, t, e, n, c, o, rfl, rfl⟩
  · cases o with
    | acknowledged => exact Remaps.of_same rfl rfl rfl
    | lost => exact Remaps.of_same rfl rfl rfl
    | refused =>
      have hd : Remaps m (.resume i) ((m.delete t (.refused e c)).setTask i .finished) :=
        remaps_delete rfl rfl rfl (by simp) (by simp)
      exact hd
  · exact Remaps.of_same rfl rfl rfl
  · cases o <;> exact Remaps.of_same rfl rfl rfl
  · exact Remaps.of_same rfl rfl rfl

/-- Every step remaps so. -/
theorem remaps_step {m m' : SubscriptionManager} {a : Action} (h : m.step a = some m') :
    Remaps m a m' := by
  cases step_effect h with
  | subscribe topic onGap => exact remaps_subscribe m topic onGap
  | unsubscribe topic =>
    unfold unsubscribe
    split
    · exact Remaps.of_same rfl rfl rfl
    · have hd : Remaps m (.unsubscribe topic)
          ((m.delete topic .unsubscribed).spawn (.unsubscribe topic .building)) :=
        remaps_delete rfl rfl rfl (fun _ => rfl) (by simp)
      exact hd
  | reattach c =>
    unfold reattach
    split
    · exact Remaps.of_same rfl rfl rfl
    · exact Remaps.of_same rfl rfl rfl
  | close c => exact Remaps.of_same rfl rfl rfl
  | claim p => exact Remaps.of_same rfl rfl rfl
  | unclaimed e => exact Remaps.of_same rfl rfl rfl
  | @complete c topic => exact remaps_delete rfl rfl rfl (by simp) (fun _ => ⟨c, rfl⟩)
  | update topic order =>
    unfold update
    split
    · exact Remaps.of_same rfl rfl rfl
    · split
      · exact Remaps.of_same rfl rfl rfl
      · split <;> exact Remaps.of_same rfl rfl rfl
      · exact Remaps.of_same rfl rfl rfl
  | emit hk hp =>
    unfold emit
    split <;> exact Remaps.of_same rfl rfl rfl
  | settle o hk hp =>
    rw [settle_eq]
    exact Remaps.of_same rfl rfl rfl
  | resume hk hr => exact remaps_resume hr
  | endRefused hk => exact remaps_endRefused m _
  | observed hp => exact Remaps.of_same hp.nextEntry hp.entries hp.removed
  | decoded hp => exact Remaps.of_same hp.nextEntry hp.entries hp.removed
  | handled hp => exact Remaps.of_same hp.nextEntry hp.entries hp.removed

/-- An entry that left the map never comes back. -/
theorem Gone.step {m m' : SubscriptionManager} {a : Action} {e : EntryId} (h : m.Gone e)
    (hstep : m.step a = some m') : m'.Gone e := by
  have hr := remaps_step hstep
  refine ⟨Nat.lt_of_lt_of_le h.1 hr.built, ?_⟩
  intro t he
  rcases hr.mapped t e he with hold | hnew
  · exact h.2 t hold
  · have := h.1
    omega

/-- A removed entry is gone. -/
theorem gone_step {m m' : SubscriptionManager} {a : Action} (hg : Grounded m)
    (h : ∀ r ∈ m.removed, m.Gone r.entry) (hstep : m.step a = some m') :
    ∀ r ∈ m'.removed, m'.Gone r.entry := by
  have hr := remaps_step hstep
  intro r hmem
  rcases hr.removed r hmem with hold | ⟨hwas, hnot, _⟩
  · exact (h r hold).step hstep
  · have hown := hg.mapped_own _ _ hwas
    refine ⟨Nat.lt_of_lt_of_le hown.2 hr.built, ?_⟩
    intro t he
    rcases hr.mapped t r.entry he with hold | hnew
    · -- an entry is mapped under its own topic only
      have ht : t = r.topic := (hg.mapped_own t _ hold).1.symm.trans hown.1
      rw [ht] at he
      exact hnot he
    · have := hown.2
      omega

/-- An entry that is gone keeps its baseline. -/
theorem last_gateAfter {m : SubscriptionManager} {e : EntryId} (hgone : m.Gone e) (a : Action) :
    (m.gateAfter a e).last = (m.heap e).gate.last := by
  have hsettle : ∀ x, m.settles a = some x → x.entry = e →
      ((m.heap e).gate.settle x.told).last = (m.heap e).gate.last := by
    rintro x hx rfl
    have hseen : x.told.delivered = false := by
      cases hd : x.told.delivered with
      | false => rfl
      | true =>
        obtain ⟨t, ht⟩ := mapped_of_settles hx hd
        exact absurd ht (hgone.2 t)
    simp only [TopicGate.settle, hseen, Bool.false_eq_true, if_false]
    exact TopicGate.last_witness _ _
  cases a with
  | subscribe topic onGap =>
    simp only [gateAfter]
    split
    · next hnew =>
      have := hgone.1
      rw [hnew.2] at this
      exact absurd this (Nat.lt_irrefl _)
    · rfl
  | reattach c =>
    simp only [gateAfter]
    split
    · rfl
    · split
      · next hmem =>
        obtain ⟨t, ht⟩ := Table.mem_values.mp hmem
        exact absurd ht (hgone.2 t)
      · rfl
  | _ =>
    simp only [gateAfter]
    split
    · next x hx =>
      split
      · next he => exact hsettle x hx he
      · rfl
    · rfl

end SubscriptionManager

/-! ### Channels and events -/

/-- An item on a channel: the update of a delivery that waits for it to be taken. -/
structure Parked where
  /-- The delivery. -/
  call : ℕ
  /-- The stamp of its update. -/
  order : ℕ
  deriving DecidableEq, Repr

/-- What the application sees of an entry. -/
inductive Event
  /-- `onUpdate` was called. -/
  | onUpdate (e : EntryId) (order : ℕ)
  /-- `onGap` was called. -/
  | onGap (e : EntryId) (r : GapReport)
  /-- The channel took an item in. -/
  | accepted (e : EntryId) (x : Parked)
  /-- A `next` call got an item. -/
  | pulled (e : EntryId) (x : Parked)
  /-- A `next` call was told that the stream is done. -/
  | ended (e : EntryId)
  deriving DecidableEq

namespace Event

/-- A delivery reached the entry's observers or its channel. -/
def reaches (e : EntryId) : Event → Bool
  | .onUpdate e' _ => e' = e
  | .onGap e' _ => e' = e
  | .accepted e' _ => e' = e
  | _ => false

/-- The item a `next` call of the entry got. -/
def pulledBy (e : EntryId) : Event → Option Parked
  | .pulled e' x => if e' = e then some x else none
  | _ => none

end Event

/-- The manager with the entries' ways of delivering. -/
structure Iteration where
  /-- The manager. -/
  manager : SubscriptionManager
  /-- The channel of an entry in iterator mode. -/
  channels : EntryId → Option (PullChannel Parked)
  /-- The deliveries whose `put` has resolved. -/
  released : List ℕ
  /-- What the application has seen. -/
  events : List Event

/-- Who moves. -/
inductive IterationAction
  /-- The application calls `subscribe`, with or without a handler. -/
  | subscribe (topic : TopicName) (onGap iterates : Bool)
  /-- A step of the manager. -/
  | manager (a : Action)
  /-- The application pulls. -/
  | next (e : EntryId)
  deriving DecidableEq

namespace Iteration

/-- `finishIteration` of an entry: the waiting `next` calls end, the parked deliveries are
released. -/
def finish (s : Iteration) (e : EntryId) : Iteration :=
  match s.channels e with
  | none => s
  | some ch =>
      { s with
        channels := Function.update s.channels e (some ch.finish)
        released := s.released ++ ch.items.map Parked.call
        events := s.events ++ List.replicate ch.takers (.ended e) }

/-- The entries whose iteration an action finishes. -/
def finishes (m : SubscriptionManager) : Action → List EntryId
  | .unsubscribe topic => (m.entries.lookup topic).toList
  | .complete _ topic => (m.entries.lookup topic).toList
  | .resume i =>
      match m.tasks[i]? with
      | some (.subscribe _ e (.settled _ .refused)) => [e]
      | _ => []
  | .endRefused i =>
      ((m.refusals i).filter fun r => m.entries.lookup r.topic = some r.entry).map
        SubscriptionManager.Refusal.entry
  | _ => []

/-- The last part of `deliver`: the handler is called, or the item is put on the channel. -/
def handOver (s : Iteration) (i : ℕ) (e : EntryId) (order : ℕ) : Iteration :=
  match s.channels e with
  | none => { s with events := s.events ++ [.onUpdate e order] }
  | some ch =>
      match ch.put ⟨i, order⟩ with
      | (ch', .dropped) =>
          { s with channels := Function.update s.channels e (some ch'), released := s.released ++ [i] }
      | (ch', .handed) =>
          { s with
            channels := Function.update s.channels e (some ch')
            released := s.released ++ [i]
            events := s.events ++ [.accepted e ⟨i, order⟩, .pulled e ⟨i, order⟩] }
      | (ch', .parked) =>
          { s with
            channels := Function.update s.channels e (some ch')
            events := s.events ++ [.accepted e ⟨i, order⟩] }

/-- What the application sees of a manager action, and what it does to the channels. -/
def observe (s : Iteration) : Action → Iteration
  | .update _ topic order =>
      match s.manager.entries.lookup topic with
      | none => s
      | some e =>
          match gapReport (s.manager.heap e).gate order with
          | none => s
          | some r =>
              if (s.manager.heap e).onGap then { s with events := s.events ++ [.onGap e r] } else s
  | .decoded i true =>
      match s.manager.tasks[i]? with
      | some (.delivery _ topic e order .decoding) =>
          if s.manager.entries.lookup topic = some e then s.handOver i e order else s
      | _ => s
  | a => (finishes s.manager a).foldl finish s

/-- A delivery in iterator mode goes on once its `put` resolved, and `put` does not throw. -/
def ready (s : Iteration) : Action → Bool
  | .handled i ok =>
      match s.manager.tasks[i]? with
      | some (.delivery _ _ e _ .handling) =>
          (s.channels e).isNone || ok && decide (i ∈ s.released)
      | _ => true
  | _ => true

/-- The `next` call of an iterator over the entry's channel. -/
def pull (s : Iteration) (e : EntryId) (ch : PullChannel Parked) : Iteration :=
  match ch.next with
  | (ch', .item x) =>
      { s with
        channels := Function.update s.channels e (some ch')
        released := s.released ++ [x.call]
        events := s.events ++ [.pulled e x] }
  | (ch', .done) =>
      { s with
        channels := Function.update s.channels e (some ch')
        events := s.events ++ [.ended e] }
  | (ch', .waiting) => { s with channels := Function.update s.channels e (some ch') }

/-- One step. -/
def step (s : Iteration) : IterationAction → Option Iteration
  | .subscribe topic onGap iterates =>
      match s.manager.entries.lookup topic with
      | some _ => some s
      | none =>
          some { s with
            manager := s.manager.subscribe topic onGap
            channels := Function.update s.channels ⟨s.manager.nextEntry⟩
              (if iterates then some PullChannel.new else none) }
  | .manager (.subscribe _ _) => none
  | .manager a =>
      if s.ready a then (s.manager.step a).map fun m => { s.observe a with manager := m } else none
  | .next e => (s.channels e).map fun ch => s.pull e ch

/-- A new manager. -/
def start (m : SubscriptionManager) : Iteration := ⟨m, fun _ => none, [], []⟩

/-! ### Behind the fence -/

/-- The calls of the entry's observers and what its channel took in. -/
def reached (s : Iteration) (e : EntryId) : List Event := s.events.filter (Event.reaches e)

/-- The items pulled from the entry's channel. -/
def pulls (s : Iteration) (e : EntryId) : List Parked := s.events.filterMap (Event.pulledBy e)

/-- Nothing reaches the entry, and its channel hands out what it holds. -/
structure Drains (e : EntryId) (s s' : Iteration) : Prop where
  /-- Nothing new reached it. -/
  reached : s'.reached e = s.reached e
  /-- An entry with a handler has no channel. -/
  handler : s.channels e = none → s'.channels e = none
  /-- What left the channel was pulled, and what is done stays done. -/
  channel : ∀ ch, s.channels e = some ch → ∃ ch', s'.channels e = some ch' ∧
    (ch.done = true → ch'.done = true) ∧ s'.pulls e ++ ch'.items = s.pulls e ++ ch.items

theorem Drains.refl (e : EntryId) (s : Iteration) : Drains e s s :=
  ⟨rfl, id, fun ch h => ⟨ch, h, id, rfl⟩⟩

theorem Drains.trans {e : EntryId} {s s' s'' : Iteration} (h : Drains e s s')
    (h' : Drains e s' s'') : Drains e s s'' where
  reached := h'.reached.trans h.reached
  handler := fun hn => h'.handler (h.handler hn)
  channel := by
    intro ch hch
    obtain ⟨ch', hch', hdone, hitems⟩ := h.channel ch hch
    obtain ⟨ch'', hch'', hdone', hitems'⟩ := h'.channel ch' hch'
    exact ⟨ch'', hch'', fun hd => hdone' (hdone hd), hitems'.trans hitems⟩

/-- The entry's channel and its part of the record stay. -/
theorem Drains.of_same {e : EntryId} {s s' : Iteration} (hch : s'.channels e = s.channels e)
    {new : List Event} (hev : s'.events = s.events ++ new)
    (hreach : ∀ x ∈ new, x.reaches e = false) (hpull : ∀ x ∈ new, x.pulledBy e = none) :
    Drains e s s' := by
  have hr : new.filter (Event.reaches e) = [] := by
    rw [List.filter_eq_nil_iff]
    intro x hx
    rw [hreach x hx]
    simp
  have hp : new.filterMap (Event.pulledBy e) = [] := List.filterMap_eq_nil_iff.mpr hpull
  refine ⟨?_, ?_, ?_⟩
  · rw [Iteration.reached, Iteration.reached, hev, List.filter_append, hr, List.append_nil]
  · rw [hch]
    exact id
  · intro ch hsome
    refine ⟨ch, hch.trans hsome, id, ?_⟩
    rw [pulls, pulls, hev, List.filterMap_append, hp, List.append_nil]

theorem drains_finish (e e' : EntryId) (s : Iteration) : Drains e s (s.finish e') := by
  unfold finish
  split
  · exact Drains.refl e s
  · next ch hch =>
    have hrep : ∀ x ∈ List.replicate ch.takers (Event.ended e'),
        x.reaches e = false ∧ x.pulledBy e = none := by
      intro x hx
      rw [List.eq_of_mem_replicate hx]
      exact ⟨rfl, rfl⟩
    by_cases he : e = e'
    · subst he
      refine ⟨?_, ?_, ?_⟩
      · have hr : (List.replicate ch.takers (Event.ended e)).filter (Event.reaches e) = [] := by
          rw [List.filter_eq_nil_iff]
          intro x hx
          rw [(hrep x hx).1]
          simp
        simp only [reached, List.filter_append, hr, List.append_nil]
      · intro hn
        rw [hn] at hch
        cases hch
      · intro ch₀ hch₀
        obtain rfl : ch₀ = ch := Option.some.inj (hch₀.symm.trans hch)
        refine ⟨ch₀.finish, by simp, fun _ => rfl, ?_⟩
        have hp : (List.replicate ch₀.takers (Event.ended e)).filterMap (Event.pulledBy e) = [] :=
          List.filterMap_eq_nil_iff.mpr fun x hx => (hrep x hx).2
        simp only [pulls, List.filterMap_append, hp, List.append_nil, PullChannel.items_finish]
    · exact Drains.of_same (by simp [he]) rfl (fun x hx => (hrep x hx).1) fun x hx => (hrep x hx).2

theorem drains_foldl_finish (e : EntryId) (es : List EntryId) (s : Iteration) :
    Drains e s (es.foldl finish s) := by
  induction es generalizing s with
  | nil => exact Drains.refl e s
  | cons e' es ih => exact (drains_finish e e' s).trans (ih (s.finish e'))

theorem drains_pull (e e' : EntryId) (s : Iteration) {ch : PullChannel Parked}
    (hch : s.channels e' = some ch) : Drains e s (s.pull e' ch) := by
  unfold pull
  rcases ch.next_cases with ⟨x, rest, hi, hn⟩ | ⟨hi, hd, hn⟩ | ⟨hi, hd, hn⟩
  · rw [hn]
    by_cases he : e = e'
    · subst he
      refine ⟨?_, ?_, ?_⟩
      · simp [reached, List.filter_append, Event.reaches]
      · intro hnone
        rw [hnone] at hch
        cases hch
      · intro ch₀ hch₀
        obtain rfl : ch₀ = ch := Option.some.inj (hch₀.symm.trans hch)
        refine ⟨{ ch₀ with items := rest }, by simp, id, ?_⟩
        simp [pulls, List.filterMap_append, Event.pulledBy, hi]
    · refine Drains.of_same (by simp [he]) rfl (by simp [Event.reaches]) ?_
      simp [Event.pulledBy, Ne.symm he]
  · rw [hn]
    refine Drains.of_same ?_ rfl (by simp [Event.reaches]) (by simp [Event.pulledBy])
    by_cases he : e = e'
    · subst he; simp [hch]
    · simp [he]
  · rw [hn]
    by_cases he : e = e'
    · subst he
      refine ⟨rfl, ?_, ?_⟩
      · intro hnone
        rw [hnone] at hch
        cases hch
      · intro ch₀ hch₀
        obtain rfl : ch₀ = ch := Option.some.inj (hch₀.symm.trans hch)
        exact ⟨{ ch₀ with takers := ch₀.takers + 1 }, by simp, id, rfl⟩
    · exact Drains.of_same (by simp [he]) (List.append_nil _).symm (by simp) (by simp)

theorem drains_handOver {e e' : EntryId} (s : Iteration) (i order : ℕ) (he : e ≠ e') :
    Drains e s (s.handOver i e' order) := by
  have hne : e' ≠ e := Ne.symm he
  unfold handOver
  split
  · exact Drains.of_same rfl rfl (by simp [Event.reaches, hne]) (by simp [Event.pulledBy])
  · split
    · exact Drains.of_same (by simp [he]) (List.append_nil _).symm (by simp) (by simp)
    · exact Drains.of_same (by simp [he]) rfl (by simp [Event.reaches, hne])
        (by simp [Event.pulledBy, hne])
    · exact Drains.of_same (by simp [he]) rfl (by simp [Event.reaches, hne])
        (by simp [Event.pulledBy])

/-- No manager step reaches an entry that is gone. -/
theorem drains_observe {e : EntryId} {s : Iteration} (hgone : s.manager.Gone e) (a : Action) :
    Drains e s (s.observe a) := by
  unfold observe
  split
  · next topic order =>
    split
    · exact Drains.refl e s
    · next e' he' =>
      have hne : e' ≠ e := by
        rintro rfl
        exact hgone.2 topic he'
      split
      · exact Drains.refl e s
      · split
        · exact Drains.of_same rfl rfl (by simp [Event.reaches, hne]) (by simp [Event.pulledBy])
        · exact Drains.refl e s
  · split
    · next topic e' order hk =>
      split
      · next he' =>
        refine drains_handOver s _ order ?_
        rintro rfl
        exact hgone.2 topic he'
      · exact Drains.refl e s
    · exact Drains.refl e s
  · exact drains_foldl_finish e _ s

/-- What a step of the whole does. -/
theorem step_cases {s s' : Iteration} {a : IterationAction} (h : s.step a = some s') :
    (∃ topic onGap iterates, a = .subscribe topic onGap iterates ∧
      ((∃ e, s.manager.entries.lookup topic = some e ∧ s' = s) ∨
        s.manager.entries.lookup topic = none ∧
        s' = { s with
          manager := s.manager.subscribe topic onGap
          channels := Function.update s.channels ⟨s.manager.nextEntry⟩
            (if iterates then some PullChannel.new else none) })) ∨
      (∃ b m, a = .manager b ∧ (∀ topic onGap, b ≠ .subscribe topic onGap) ∧
        s.ready b = true ∧ s.manager.step b = some m ∧ s' = { s.observe b with manager := m }) ∨
      ∃ e ch, a = .next e ∧ s.channels e = some ch ∧ s' = s.pull e ch := by
  cases a with
  | subscribe topic onGap iterates =>
    refine Or.inl ⟨topic, onGap, iterates, rfl, ?_⟩
    simp only [step] at h
    split at h
    · next e he =>
      cases h
      exact Or.inl ⟨e, he, rfl⟩
    · next hnone =>
      cases h
      exact Or.inr ⟨hnone, rfl⟩
  | manager b =>
    refine Or.inr (Or.inl ?_)
    have hb : ∀ topic onGap, b ≠ .subscribe topic onGap := by
      rintro topic onGap rfl
      cases h
    have hstep : (if s.ready b then
        (s.manager.step b).map fun m => { s.observe b with manager := m } else none) = some s' := by
      cases b with
      | subscribe topic onGap => exact absurd rfl (hb topic onGap)
      | _ => exact h
    split at hstep
    · next hready =>
      obtain ⟨m, hm, rfl⟩ := Option.map_eq_some_iff.mp hstep
      exact ⟨b, m, rfl, hb, hready, hm, rfl⟩
    · cases hstep
  | next e =>
    obtain ⟨ch, hch, rfl⟩ := Option.map_eq_some_iff.mp h
    exact Or.inr (Or.inr ⟨e, ch, rfl, hch, rfl⟩)

@[simp] theorem manager_finish (s : Iteration) (e : EntryId) : (s.finish e).manager = s.manager := by
  unfold finish
  split <;> rfl

@[simp] theorem manager_pull (s : Iteration) (e : EntryId) (ch : PullChannel Parked) :
    (s.pull e ch).manager = s.manager := by
  unfold pull
  split <;> rfl

/-- The manager takes a step of its own, or none. -/
theorem manager_step {s s' : Iteration} {a : IterationAction} (h : s.step a = some s') :
    s'.manager = s.manager ∨ ∃ b, s.manager.step b = some s'.manager := by
  rcases step_cases h with ⟨topic, onGap, iterates, rfl, ⟨e, he, rfl⟩ | ⟨hnone, rfl⟩⟩ |
    ⟨b, m, rfl, hb, hready, hm, rfl⟩ | ⟨e, ch, rfl, hch, rfl⟩
  · exact Or.inl rfl
  · exact Or.inr ⟨.subscribe topic onGap, rfl⟩
  · exact Or.inr ⟨b, hm⟩
  · exact Or.inl (manager_pull s e ch)

theorem gone_of_step {s s' : Iteration} {a : IterationAction} {e : EntryId}
    (hgone : s.manager.Gone e) (h : s.step a = some s') : s'.manager.Gone e := by
  rcases manager_step h with heq | ⟨b, hb⟩
  · rw [heq]
    exact hgone
  · exact hgone.step hb

/-- An entry that is gone drains. -/
theorem drains_step {s s' : Iteration} {a : IterationAction} {e : EntryId}
    (hgone : s.manager.Gone e) (h : s.step a = some s') : Drains e s s' := by
  rcases step_cases h with ⟨topic, onGap, iterates, rfl, ⟨e', he, rfl⟩ | ⟨hnone, rfl⟩⟩ |
    ⟨b, m, rfl, hb, hready, hm, rfl⟩ | ⟨e', ch, rfl, hch, rfl⟩
  · exact Drains.refl e _
  · refine Drains.of_same ?_ (List.append_nil _).symm (by simp) (by simp)
    -- the entry was built before the new one
    have hne : e ≠ ⟨s.manager.nextEntry⟩ := by
      rintro rfl
      exact absurd hgone.1 (Nat.lt_irrefl _)
    simp [hne]
  · have hd := drains_observe hgone b
    exact ⟨hd.reached, hd.handler, hd.channel⟩
  · exact drains_pull e e' s hch

/-- The baseline of an entry that is gone stays. -/
theorem last_step {s s' : Iteration} {a : IterationAction} {e : EntryId}
    (hgone : s.manager.Gone e) (h : s.step a = some s') :
    (s'.manager.heap e).gate.last = (s.manager.heap e).gate.last := by
  rcases manager_step h with heq | ⟨b, hb⟩
  · rw [heq]
  · rw [SubscriptionManager.gate_step hb e]
    exact SubscriptionManager.last_gateAfter hgone b

/-! ### Parked deliveries -/

/-- The delivery was released, or its item is queued on a channel that is not done. -/
def Waits (s : Iteration) (i : ℕ) (e : EntryId) : Prop :=
  i ∈ s.released ∨ ∃ ch, s.channels e = some ch ∧ ch.done = false ∧ ∃ x ∈ ch.items, x.call = i

/-- Modes stay, and a delivery waits until it is released. -/
structure Goes (s s' : Iteration) : Prop where
  /-- An entry with a handler keeps it. -/
  mode : ∀ e, s.channels e = none → s'.channels e = none
  /-- Who waits goes on waiting or is released. -/
  waits : ∀ i e, s.Waits i e → s'.Waits i e

theorem Goes.refl (s : Iteration) : Goes s s := ⟨fun _ => id, fun _ _ => id⟩

theorem Goes.trans {s s' s'' : Iteration} (h : Goes s s') (h' : Goes s' s'') : Goes s s'' :=
  ⟨fun e hn => h'.mode e (h.mode e hn), fun i e hw => h'.waits i e (h.waits i e hw)⟩

/-- A change of one channel that releases what it takes from it. -/
theorem Goes.of_update {s s' : Iteration} {e : EntryId} {ch ch' : PullChannel Parked}
    (hch : s.channels e = some ch) (hch' : s'.channels = Function.update s.channels e (some ch'))
    (hreleased : s.released ⊆ s'.released)
    (hitems : ch.done = false → ∀ x ∈ ch.items,
      x.call ∈ s'.released ∨ ch'.done = false ∧ x ∈ ch'.items) : Goes s s' where
  mode := by
    intro e' hn
    have hne : e' ≠ e := by
      rintro rfl
      rw [hn] at hch
      cases hch
    rw [hch', Function.update_of_ne hne]
    exact hn
  waits := by
    rintro i e' (hi | ⟨ch₀, hch₀, hdone, x, hx, rfl⟩)
    · exact Or.inl (hreleased hi)
    · by_cases he : e' = e
      · subst he
        obtain rfl : ch₀ = ch := Option.some.inj (hch₀.symm.trans hch)
        rcases hitems hdone x hx with hr | ⟨hdone', hx'⟩
        · exact Or.inl hr
        · exact Or.inr ⟨ch', by rw [hch', Function.update_self], hdone', x, hx', rfl⟩
      · exact Or.inr ⟨ch₀, by rw [hch', Function.update_of_ne he]; exact hch₀, hdone, x, hx, rfl⟩

theorem goes_finish (s : Iteration) (e : EntryId) : Goes s (s.finish e) := by
  unfold finish
  split
  · exact Goes.refl s
  · next ch hch =>
    refine Goes.of_update hch rfl (List.subset_append_left _ _) ?_
    intro _ x hx
    exact Or.inl (List.mem_append_right _ (List.mem_map_of_mem hx))

theorem goes_foldl_finish (es : List EntryId) (s : Iteration) : Goes s (es.foldl finish s) := by
  induction es generalizing s with
  | nil => exact Goes.refl s
  | cons e es ih => exact (goes_finish s e).trans (ih (s.finish e))

theorem goes_pull (s : Iteration) {e : EntryId} {ch : PullChannel Parked}
    (hch : s.channels e = some ch) : Goes s (s.pull e ch) := by
  unfold pull
  rcases ch.next_cases with ⟨x, rest, hi, hn⟩ | ⟨hi, hd, hn⟩ | ⟨hi, hd, hn⟩
  · rw [hn]
    refine Goes.of_update hch rfl (List.subset_append_left _ _) ?_
    intro hdone y hy
    rw [hi] at hy
    rcases List.mem_cons.mp hy with rfl | hy
    · exact Or.inl (List.mem_append_right _ (List.mem_singleton_self _))
    · exact Or.inr ⟨hdone, hy⟩
  · rw [hn]
    exact Goes.of_update hch rfl (List.Subset.refl _) fun hdone x hx => Or.inr ⟨hdone, hx⟩
  · rw [hn]
    exact Goes.of_update hch rfl (List.Subset.refl _) fun hdone x hx => Or.inr ⟨hdone, hx⟩

/-- Handing over: the others go on waiting, and the new delivery waits or is released. -/
theorem goes_handOver (s : Iteration) (i : ℕ) (e : EntryId) (order : ℕ) :
    Goes s (s.handOver i e order) ∧
      ∀ ch, s.channels e = some ch → (s.handOver i e order).Waits i e := by
  unfold handOver
  split
  · next hnone =>
    refine ⟨⟨fun _ => id, fun _ _ => id⟩, ?_⟩
    intro ch hch
    rw [hnone] at hch
    cases hch
  · next ch hch =>
    have hlast : i ∈ s.released ++ [i] := List.mem_append_right _ (List.mem_singleton_self _)
    rcases ch.put_cases ⟨i, order⟩ with ⟨hd, hp⟩ | ⟨hd, n, ht, hp⟩ | ⟨hd, hp⟩
    · rw [hp]
      exact ⟨Goes.of_update hch rfl (List.subset_append_left _ _)
        fun hdone x hx => Or.inr ⟨hdone, hx⟩, fun _ _ => Or.inl hlast⟩
    · rw [hp]
      exact ⟨Goes.of_update hch rfl (List.subset_append_left _ _)
        fun hdone x hx => Or.inr ⟨hdone, hx⟩, fun _ _ => Or.inl hlast⟩
    · rw [hp]
      refine ⟨Goes.of_update hch rfl (List.Subset.refl _)
        fun hdone x hx => Or.inr ⟨hdone, List.mem_append_left _ hx⟩, ?_⟩
      intro _ _
      exact Or.inr ⟨_, Function.update_self _ _ _, hd, ⟨i, order⟩,
        List.mem_append_right _ (List.mem_singleton_self _), rfl⟩

theorem goes_observe (s : Iteration) (a : Action) : Goes s (s.observe a) := by
  unfold observe
  split
  · split
    · exact Goes.refl s
    · split
      · exact Goes.refl s
      · split
        · exact ⟨fun _ => id, fun _ _ => id⟩
        · exact Goes.refl s
  · split
    · split
      · exact (goes_handOver s _ _ _).1
      · exact Goes.refl s
    · exact Goes.refl s
  · exact goes_foldl_finish _ s

/-! ### What every run keeps -/

/-- What holds in every state. -/
structure Sound (s : Iteration) : Prop where
  /-- The manager's own bookkeeping. -/
  grounded : s.manager.Grounded
  /-- A removed entry is gone. -/
  gone : ∀ r ∈ s.manager.removed, s.manager.Gone r.entry
  /-- An entry that was unsubscribed or completed has a finished channel, or none. -/
  done : ∀ r ∈ s.manager.removed, r.cause = .unsubscribed ∨ r.cause = .completed →
    ∀ ch, s.channels r.entry = some ch → ch.done = true
  /-- A delivery at the channel waits for its item. -/
  held : ∀ i via t e n, s.manager.tasks[i]? = some (.delivery via t e n .handling) →
    ∀ ch, s.channels e = some ch → s.Waits i e

/-- A finished iteration is finished. -/
theorem done_foldl_finish {e : EntryId} : ∀ {es : List EntryId} {s : Iteration}, e ∈ es →
    ∀ ch, (es.foldl finish s).channels e = some ch → ch.done = true := by
  intro es
  induction es with
  | nil => intro s he; cases he
  | cons e' es ih =>
    intro s he ch hch
    rcases List.mem_cons.mp he with rfl | he
    · have hd := drains_foldl_finish e es (s.finish e)
      cases hone : (s.finish e).channels e with
      | none =>
        rw [List.foldl_cons, hd.handler hone] at hch
        cases hch
      | some ch₁ =>
        have hdone : ch₁.done = true := by
          unfold finish at hone
          split at hone
          · next hnone => rw [hnone] at hone; cases hone
          · simp only [Function.update_self, Option.some.injEq] at hone
            rw [← hone]
            rfl
        obtain ⟨ch₂, hch₂, hkeep, _⟩ := hd.channel ch₁ hone
        rw [List.foldl_cons, hch₂] at hch
        cases hch
        exact hkeep hdone
    · exact ih he ch hch

/-- The step that unsubscribes or completes an entry finishes its channel. -/
theorem done_of_removal {s : Iteration} {b : Action} {r : Removal}
    (hwas : s.manager.entries.lookup r.topic = some r.entry)
    (hunsub : r.cause = .unsubscribed → b = .unsubscribe r.topic)
    (hcomplete : r.cause = .completed → ∃ c, b = .complete c r.topic)
    (hcause : r.cause = .unsubscribed ∨ r.cause = .completed) :
    ∀ ch, (s.observe b).channels r.entry = some ch → ch.done = true := by
  rcases hcause with hc | hc
  · rw [hunsub hc]
    exact done_foldl_finish (by simp [finishes, hwas])
  · obtain ⟨c, rfl⟩ := hcomplete hc
    exact done_foldl_finish (by simp [finishes, hwas])

theorem removed_subscribe (m : SubscriptionManager) (topic : TopicName) (onGap : Bool) :
    (m.subscribe topic onGap).removed = m.removed := by
  unfold SubscriptionManager.subscribe
  split <;> rfl

/-- What was done before a step of gone entries is done behind it. -/
theorem done_of_drains {s s' : Iteration} {e : EntryId} (hd : Drains e s s')
    (h : ∀ ch, s.channels e = some ch → ch.done = true) :
    ∀ ch, s'.channels e = some ch → ch.done = true := by
  intro ch' hch'
  cases hs : s.channels e with
  | none =>
    rw [hd.handler hs] at hch'
    cases hch'
  | some ch =>
    obtain ⟨ch'', hch'', hkeep, _⟩ := hd.channel ch hs
    rw [hch''] at hch'
    cases hch'
    exact hkeep (h ch hs)

theorem Sound.done_step {s s' : Iteration} {a : IterationAction} (h : Sound s)
    (hstep : s.step a = some s') (r : Removal) (hr : r ∈ s'.manager.removed)
    (hcause : r.cause = .unsubscribed ∨ r.cause = .completed) :
    ∀ ch, s'.channels r.entry = some ch → ch.done = true := by
  have hold : r ∈ s.manager.removed → ∀ ch, s'.channels r.entry = some ch → ch.done = true :=
    fun hmem => done_of_drains (drains_step (h.gone r hmem) hstep) (h.done r hmem hcause)
  rcases step_cases hstep with ⟨topic, onGap, iterates, rfl, ⟨e', he, rfl⟩ | ⟨hnone, rfl⟩⟩ |
    ⟨b, m, rfl, hb, hready, hm, rfl⟩ | ⟨e', ch, rfl, hch, rfl⟩
  · exact hold hr
  · exact hold (removed_subscribe s.manager topic onGap ▸ hr)
  · rcases (SubscriptionManager.remaps_step hm).removed r hr with hmem | ⟨hwas, _, hunsub, hcomplete⟩
    · exact hold hmem
    · exact done_of_removal hwas hunsub hcomplete hcause
  · exact hold (manager_pull s e' ch ▸ hr)

theorem Sound.held_step {s s' : Iteration} {a : IterationAction} (h : Sound s)
    (hstep : s.step a = some s') (i : ℕ) (via : ClientId) (t : TopicName) (e : EntryId) (n : ℕ)
    (hk : s'.manager.tasks[i]? = some (.delivery via t e n .handling)) (ch : PullChannel Parked)
    (hch : s'.channels e = some ch) : s'.Waits i e := by
  have hgoes : Goes s s' → s.manager.tasks[i]? = some (.delivery via t e n .handling) →
      s'.Waits i e := by
    intro hg hk'
    cases hs : s.channels e with
    | none =>
      rw [hg.mode e hs] at hch
      cases hch
    | some ch₀ => exact hg.waits i e (h.held i via t e n hk' ch₀ hs)
  rcases step_cases hstep with ⟨topic, onGap, iterates, rfl, ⟨e', he, rfl⟩ | ⟨hnone, rfl⟩⟩ |
    ⟨b, m, rfl, hb, hready, hm, rfl⟩ | ⟨e', ch', rfl, hch', rfl⟩
  · exact hgoes (Goes.refl _) hk
  · rcases SubscriptionManager.handling_step (a := .subscribe topic onGap) rfl hk with
      hk' | ⟨hbad, _⟩
    · -- the new entry has no deliveries yet
      have hown := h.grounded.tasks_own _ (List.mem_of_getElem? hk') t e rfl
      have hne : e ≠ ⟨s.manager.nextEntry⟩ := by
        rintro rfl
        exact absurd hown.2 (Nat.lt_irrefl _)
      have hsame : s.channels e = some ch := by
        have hupd := hch
        simp only [Function.update_of_ne hne] at hupd
        exact hupd
      rcases h.held i via t e n hk' ch hsame with hrel | hwait
      · exact Or.inl hrel
      · refine Or.inr ?_
        simpa only [Function.update_of_ne hne] using hwait
    · cases hbad
  · have hgo := goes_observe s b
    rcases SubscriptionManager.handling_step hm hk with hk' | ⟨rfl, hk', he⟩
    · exact hgoes ⟨hgo.mode, hgo.waits⟩ hk'
    · -- the delivery has just been handed over
      have hobs : s.observe (.decoded i true) = s.handOver i e n := by
        simp [observe, hk', he]
      rw [hobs] at hch ⊢
      obtain ⟨hg, hnew⟩ := goes_handOver s i e n
      cases hs : s.channels e with
      | none =>
        have hnone := hg.mode e hs
        rw [show (s.handOver i e n).channels e = some ch from hch] at hnone
        cases hnone
      | some ch₀ => exact hnew ch₀ hs
  · rw [manager_pull] at hk
    exact hgoes (goes_pull s hch') hk

theorem Sound.step {s s' : Iteration} {a : IterationAction} (h : Sound s)
    (hstep : s.step a = some s') : Sound s' where
  grounded := by
    rcases manager_step hstep with heq | ⟨b, hb⟩
    · rw [heq]
      exact h.grounded
    · exact SubscriptionManager.grounded_step h.grounded hb
  gone := by
    rcases manager_step hstep with heq | ⟨b, hb⟩
    · rw [heq]
      exact h.gone
    · exact SubscriptionManager.gone_step h.grounded h.gone hb
  done := h.done_step hstep
  held := h.held_step hstep

theorem sound_start {peers : ClientId → Peer} {c : ClientId} {m : SubscriptionManager}
    (hnew : SubscriptionManager.new peers c = .ok m) : Sound (start m) := by
  have hg := SubscriptionManager.grounded_new hnew
  obtain ⟨p, _, rfl⟩ := SubscriptionManager.new_cases hnew
  refine ⟨hg, ?_, ?_, ?_⟩
  · intro r hr
    cases hr
  · intro r hr
    cases hr
  · intro i via t e n hk
    cases hk

theorem sound_of_reachable {peers : ClientId → Peer} {c : ClientId} {m : SubscriptionManager}
    (hnew : SubscriptionManager.new peers c = .ok m) {s : Iteration}
    (h : Reachable step (start m) s) : Sound s :=
  Reaches.invariant (I := Sound) (sound_start hnew) (fun _ _ _ _ hs _ hstep => hs.step hstep) h

/-! ### The fence -/

/-- What a run does behind the fence of an entry that is gone. -/
theorem drains_of_reachable {s s' : Iteration} {e : EntryId} (hgone : s.manager.Gone e)
    (h : Reachable step s s') : s'.manager.Gone e ∧ Drains e s s' ∧
      (s'.manager.heap e).gate.last = (s.manager.heap e).gate.last := by
  refine Reaches.invariant (I := fun s' => s'.manager.Gone e ∧ Drains e s s' ∧
    (s'.manager.heap e).gate.last = (s.manager.heap e).gate.last) ?_ ?_ h
  · exact ⟨hgone, Drains.refl e s, rfl⟩
  · intro s₁ a s₂ _ hi _ hstep
    obtain ⟨hg, hd, hlast⟩ := hi
    exact ⟨gone_of_step hg hstep, hd.trans (drains_step hg hstep), (last_step hg hstep).trans hlast⟩

/-- A released delivery goes on and settles. -/
theorem handled_of_released {s : Iteration} {i : ℕ} {via : ClientId} {t : TopicName} {e : EntryId}
    {n : ℕ} (hk : s.manager.tasks[i]? = some (.delivery via t e n .handling))
    (hr : i ∈ s.released) : ∃ s', s.step (.manager (.handled i true)) = some s' ∧
      s'.manager.tasks[i]? = some .finished := by
  have hready : s.ready (.handled i true) = true := by simp [ready, hk, hr]
  have hm : s.manager.step (.handled i true) = some (s.manager.committed i t e n) := by
    simp [SubscriptionManager.step, hk, SubscriptionManager.waits, SubscriptionManager.proceed]
  refine ⟨_, by simp only [step, hready, if_true, hm]; rfl, ?_⟩
  obtain ⟨hlt, _⟩ := List.getElem?_eq_some_iff.mp hk
  show (s.manager.committed i t e n).tasks[i]? = _
  unfold SubscriptionManager.committed
  split
  · exact List.getElem?_set_self hlt
  · exact List.getElem?_set_self hlt

/-- **Unsubscribe and completion are a fence.**  From a state on whose record an entry was
unsubscribed or completed, in every later state: its observers were not called again and
its channel took nothing in, its baseline stands, what its channel held was pulled in order
or can be pulled, and every delivery parked on it settles. -/
theorem removal_is_a_fence (peers : ClientId → Peer) (c : ClientId) (m₀ : SubscriptionManager)
    (hnew : SubscriptionManager.new peers c = .ok m₀) (s : Iteration)
    (hs : Reachable step (start m₀) s) (r : Removal) (hr : r ∈ s.manager.removed)
    (hcause : r.cause = .unsubscribed ∨ r.cause = .completed) (s' : Iteration)
    (hs' : Reachable step s s') :
    s'.reached r.entry = s.reached r.entry ∧
    (s'.manager.heap r.entry).gate.last = (s.manager.heap r.entry).gate.last ∧
    (∀ ch, s.channels r.entry = some ch → ∃ ch', s'.channels r.entry = some ch' ∧
      (∀ x, ch'.put x = (ch', .dropped)) ∧
      s'.pulls r.entry ++ ch'.items = s.pulls r.entry ++ ch.items ∧
      ∀ x rest, ch'.items = x :: rest → ∃ s'', s'.step (.next r.entry) = some s'' ∧
        s''.pulls r.entry = s'.pulls r.entry ++ [x]) ∧
    ∀ i via t n, s'.manager.tasks[i]? = some (.delivery via t r.entry n .handling) →
      (s'.channels r.entry).isSome = true →
      ∃ s'', s'.step (.manager (.handled i true)) = some s'' ∧
        s''.manager.tasks[i]? = some .finished := by
  have hsound := sound_of_reachable hnew hs
  have hgone := hsound.gone r hr
  obtain ⟨hgone', hdrains, hlast⟩ := drains_of_reachable hgone hs'
  have hsound' : Sound s' :=
    Reaches.invariant (I := Sound) hsound (fun _ _ _ _ h _ hstep => h.step hstep) hs'
  have hdone : ∀ ch, s'.channels r.entry = some ch → ch.done = true :=
    done_of_drains hdrains (hsound.done r hr hcause)
  refine ⟨hdrains.reached, hlast, ?_, ?_⟩
  · intro ch hch
    obtain ⟨ch', hch', _, hitems⟩ := hdrains.channel ch hch
    refine ⟨ch', hch', PullChannel.put_of_done (hdone ch' hch'), hitems, ?_⟩
    intro x rest hx
    refine ⟨s'.pull r.entry ch', by simp [step, hch'], ?_⟩
    rw [pull, PullChannel.next_of_cons hx]
    simp [pulls, List.filterMap_append, Event.pulledBy]
  · intro i via t n hk hmode
    obtain ⟨ch, hch⟩ := Option.isSome_iff_exists.mp hmode
    apply handled_of_released hk
    -- on a finished channel nobody waits any more
    rcases hsound'.held i via t r.entry n hk ch hch with hrel | ⟨ch', hch', hopen, _⟩
    · exact hrel
    · rw [hdone ch' hch'] at hopen
      cases hopen

/-- Two updates are parked when the topic is unsubscribed; the first is pulled
afterwards. -/
theorem fence_with_parked_updates :
    ∃ m₀ s s' r, SubscriptionManager.new (fun _ => Peer.fresh) ⟨0⟩ = .ok m₀ ∧
      Reachable step (start m₀) s ∧ r ∈ s.manager.removed ∧ r.cause = .unsubscribed ∧
      Reachable step s s' ∧ (s.channels r.entry).map PullChannel.items = some [⟨1, 1⟩, ⟨2, 2⟩] ∧
      s'.pulls r.entry = [⟨1, 1⟩] ∧ s'.reached r.entry = s.reached r.entry ∧
      ∃ s'', s'.step (.manager (.handled 2 true)) = some s'' ∧
        s''.manager.tasks[2]? = some .finished := by
  have hrun : ((SubscriptionManager.new (fun _ => Peer.fresh) ⟨0⟩).toOption.bind fun m₀ =>
      (runs step (start m₀)
        [.subscribe TopicName.prices false true, .manager (.update ⟨0⟩ TopicName.prices 1),
          .manager (.decoded 1 true), .manager (.update ⟨0⟩ TopicName.prices 2),
          .manager (.decoded 2 true), .manager (.unsubscribe TopicName.prices)]).bind fun s =>
        (runs step s [.next ⟨0⟩]).map fun s' =>
          (s.manager.removed, (s.channels ⟨0⟩).map PullChannel.items, s'.pulls ⟨0⟩,
            s'.manager.tasks[2]?, (s'.channels ⟨0⟩).isSome)) =
      some ([⟨TopicName.prices, ⟨0⟩, .unsubscribed, ⟨0⟩⟩], some [⟨1, 1⟩, ⟨2, 2⟩], [⟨1, 1⟩],
        some (.delivery ⟨0⟩ TopicName.prices ⟨0⟩ 2 .handling), true) := by
    decide +kernel
  obtain ⟨m₀, hm₀, hbind⟩ := Option.bind_eq_some_iff.mp hrun
  obtain ⟨s, hs, hmap⟩ := Option.bind_eq_some_iff.mp hbind
  obtain ⟨s', hs', hobs⟩ := Option.map_eq_some_iff.mp hmap
  simp only [Prod.mk.injEq] at hobs
  obtain ⟨hremoved, hitems, hpulls, htask, hmode⟩ := hobs
  have hnew := SubscriptionManager.new_of_toOption hm₀
  have hr : (⟨TopicName.prices, ⟨0⟩, .unsubscribed, ⟨0⟩⟩ : Removal) ∈ s.manager.removed := by
    rw [hremoved]
    exact List.mem_singleton_self _
  have hfence := removal_is_a_fence (fun _ => Peer.fresh) ⟨0⟩ m₀ hnew s (Reachable.of_runs hs) _ hr
    (Or.inl rfl) s' (Reachable.of_runs hs')
  exact ⟨m₀, s, s', _, hnew, Reachable.of_runs hs, hr, rfl, Reachable.of_runs hs', hitems, hpulls,
    hfence.1, hfence.2.2.2 2 ⟨0⟩ TopicName.prices 2 htask hmode⟩

end Iteration

end Client
end TightbeamExt
