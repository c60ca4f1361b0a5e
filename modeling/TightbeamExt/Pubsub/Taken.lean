import TightbeamExt.Pubsub.Agreement

/-!
# What the drain tasks take

A lane loses what its policy evicts or refuses and nothing else, and a drain task
takes from the head of what is left.  So what it takes is, in order, a part of what
`fan_out` handed to the lane, then the end frame; and what was handed to the lane is a
piece of the ledger.

## Main definitions

* `Cell.InOrder` — what was taken and what is queued stand in the order they were
  handed in.

## Main results

* `Node.inOrder_step` — every step of a node keeps it in every lane.
* `taken_in_order` — **a drain task takes updates of the ledger in its order, then the
  end frame of its topic**.
-/

namespace TightbeamExt
namespace Pubsub

open Transition Broadcast

/-- What every rewriting keeps, a sweep keeps. -/
theorem sweep_keeps {κ ν : Type*} [DecidableEq κ] {f : κ → ν → ν} {P : ν → Prop}
    (hf : ∀ k v, P v → P (f k v)) :
    ∀ (ks : List κ) (m : κ → ν), (∀ k, P (m k)) → ∀ k, P (sweep f ks m k) := by
  intro ks
  induction ks with
  | nil => intro m hm; exact hm
  | cons j ks ih =>
    intro m hm
    refine ih _ fun k => ?_
    show P (Function.update m j (f j (m j)) k)
    rw [Function.update_apply]
    split
    · exact hf j _ (hm j)
    · exact hm k

/-! ### One lane -/

/-- The updates of a log that one more update entered. -/
theorem updates_concat (l : List Sent) (f : Frame) :
    ((l ++ [Sent.update f]).filter Sent.isUpdate).map Sent.frame =
      (l.filter Sent.isUpdate).map Sent.frame ++ [f] := by
  rw [List.filter_append, List.map_append]
  rfl

namespace Cell

/-- What was taken and what is queued stand in the order they were handed in. -/
structure InOrder (c : Cell) : Prop where
  /-- The queue is behind what was taken. -/
  taken : (c.history.popped ++ c.lane.queue).Sublist (c.history.enqueued.map Sent.frame)
  /-- Updates enter in the order they are handed in. -/
  fed : ((c.history.enqueued.filter Sent.isUpdate).map Sent.frame).Sublist c.history.handed

theorem inOrder_new : new.InOrder := ⟨.slnil, .slnil⟩

theorem InOrder.of_same {c c' : Cell} (h : c.InOrder) (hq : c'.lane.queue = c.lane.queue)
    (hh : c'.history = c.history) : c'.InOrder := by
  refine ⟨?_, ?_⟩
  · rw [hq, hh]
    exact h.taken
  · rw [hh]
    exact h.fed

/-- The critical section of `push`. -/
theorem InOrder.offer {c : Cell} (h : c.InOrder) (f : Frame) (o : Offer) : (c.offer f o).InOrder := by
  have hfed := h.fed.append (List.Sublist.refl [f])
  rw [← updates_concat] at hfed
  cases o with
  | queued =>
    refine ⟨?_, hfed⟩
    have htaken := h.taken.append (List.Sublist.refl [f])
    simpa [Cell.offer, Cell.enqueue, Cell.hand] using htaken
  | replaced =>
    refine ⟨?_, hfed⟩
    -- the queue loses its head and gains the new update
    have htail : (c.history.popped ++ c.lane.queue.tail).Sublist
        (c.history.enqueued.map Sent.frame) :=
      ((List.Sublist.refl _).append (List.tail_sublist _)).trans h.taken
    have htaken := htail.append (List.Sublist.refl [f])
    simpa [Cell.offer, Cell.enqueue, Cell.evict, Cell.hand] using htaken
  | refused => exact ⟨h.taken, h.fed.trans (List.sublist_append_left _ _)⟩
  | disconnect => exact ⟨h.taken, h.fed.trans (List.sublist_append_left _ _)⟩

theorem InOrder.push {c : Cell} (h : c.InOrder) (capacity : ℕ) (onFull : DeliveryPolicy)
    (topic : Topic) (update : Frame) : (c.push capacity onFull topic update).1.InOrder := by
  unfold Cell.push
  cases c.offered capacity onFull topic with
  | queued => exact (h.offer update .queued).of_same rfl rfl
  | replaced => exact (h.offer update .replaced).of_same rfl rfl
  | refused => exact (h.offer update .refused).of_same rfl rfl
  | disconnect => exact h.offer update .disconnect

/-- The end frame is no update. -/
theorem InOrder.finish {c : Cell} (h : c.InOrder) (f : Frame) : (c.finish f).InOrder := by
  have htaken := h.taken.append (List.Sublist.refl [f])
  refine ⟨?_, ?_⟩
  · simpa [Cell.finish, Cell.enqueue, Cell.storeFinished, Cell.wake] using htaken
  · simpa [Cell.finish, Cell.enqueue, Cell.storeFinished, Cell.wake, Sent.isUpdate] using h.fed

theorem InOrder.close {c : Cell} (h : c.InOrder) : c.close.InOrder := h.of_same rfl rfl

theorem InOrder.settle {c : Cell} (h : c.InOrder) : c.settle.InOrder := h.of_same rfl rfl

/-- The head of the queue is taken. -/
theorem InOrder.pop {c : Cell} (h : c.InOrder) : c.pop.2.InOrder := by
  unfold Cell.pop
  split
  · next hq =>
    refine ⟨?_, h.fed⟩
    have htaken := h.taken
    rw [hq] at htaken
    exact htaken
  · next f q hq =>
    refine ⟨?_, h.fed⟩
    have htaken := h.taken
    rw [hq] at htaken
    simpa using htaken

/-- Behind the updates there is at most one end frame. -/
theorem InOrder.split {c : Cell} (h : c.InOrder)
    (hlast : ∀ s ∈ c.history.enqueued.dropLast, s.isUpdate = true) :
    ∃ ups ends, c.history.popped = ups ++ ends ∧ ups.Sublist c.history.handed ∧
      (ends = [] ∨ ∃ f, ends = [f] ∧ .completion f ∈ c.history.enqueued) := by
  have hpopped : c.history.popped.Sublist (c.history.enqueued.map Sent.frame) :=
    (List.sublist_append_left _ _).trans h.taken
  rcases List.eq_nil_or_concat c.history.enqueued with hnil | ⟨front, x, hx⟩
  · rw [hnil, List.map_nil, List.sublist_nil] at hpopped
    exact ⟨[], [], hpopped, List.nil_sublist _, .inl rfl⟩
  · rw [List.concat_eq_append] at hx
    have hfront : front.filter Sent.isUpdate = front := by
      rw [List.filter_eq_self]
      rw [hx, List.dropLast_concat] at hlast
      exact hlast
    have hfed := h.fed
    rw [hx] at hfed
    rw [hx, List.map_append] at hpopped
    cases x with
    | update f =>
      rw [updates_concat, hfront] at hfed
      exact ⟨c.history.popped, [], (List.append_nil _).symm, hpopped.trans hfed, .inl rfl⟩
    | completion f =>
      obtain ⟨ups, ends, hsplit, hups, hends⟩ := List.sublist_append_iff.mp hpopped
      refine ⟨ups, ends, hsplit, ?_, ?_⟩
      · refine hups.trans ?_
        rw [List.filter_append, hfront] at hfed
        simpa [Sent.isUpdate] using hfed
      · rcases List.sublist_singleton.mp hends with rfl | rfl
        · exact .inl rfl
        · exact .inr ⟨f, rfl, by rw [hx]; simp⟩

end Cell

/-! ### One node -/

namespace Node

variable {b : FrameBuilder} {o : RegistryOptions} {n n' : Node}

theorem inOrder_closeAll {cells : SubscriberId → Cell} (h : ∀ id, (cells id).InOrder) (s : State)
    (ids : List SubscriberId) (id : SubscriberId) : (closeAll s ids cells id).InOrder := by
  refine sweep_keeps ?_ ids cells h id
  intro k c hc
  split
  · exact hc.close
  · exact hc

theorem inOrder_dropConnection (h : ∀ id, (n.cells id).InOrder) (c : ConnectionId)
    (id : SubscriberId) : ((n.dropConnection c).cells id).InOrder :=
  inOrder_closeAll h _ _ id

theorem inOrder_unregister (h : ∀ id, (n.cells id).InOrder) (c : ConnectionId) (t : Topic)
    (id : SubscriberId) : ((n.unregister c t).cells id).InOrder := by
  unfold unregister
  split
  · exact h id
  · exact inOrder_closeAll h _ _ id

theorem inOrder_registerBody (h : ∀ id, (n.cells id).InOrder) (c : ConnectionId) (t : Topic)
    (id : SubscriberId) : ((n.registerBody o c t).cells id).InOrder := by
  unfold registerBody
  split
  · show (Function.update n.cells _ Cell.new id).InOrder
    rw [Function.update_apply]
    split
    · exact Cell.inOrder_new
    · exact h id
  · exact h id

theorem inOrder_deliverBody (h : ∀ id, (n.cells id).InOrder) (t : Topic) (order : ℕ)
    (payload : Octets) (policy : SubscriberId → DeliveryPolicy) (id : SubscriberId) :
    ((n.deliverBody b o t order payload policy).cells id).InOrder := by
  unfold deliverBody
  split
  · exact h id
  · refine sweep_keeps ?_ _ n.cells h id
    intro k c hc
    unfold pushTo
    split
    · exact hc
    · exact hc.push _ _ _ _

theorem inOrder_finishAll (h : ∀ id, (n.cells id).InOrder) (ends : List EndSignal)
    (id : SubscriberId) : ((n.finishAll ends).cells id).InOrder := by
  have hloop : ∀ (ends : List EndSignal) (cells : SubscriberId → Cell),
      (∀ id, (cells id).InOrder) → ∀ id, (finishCells n.state ends cells id).InOrder := by
    intro ends
    induction ends with
    | nil => intro cells hc; exact hc
    | cons e ends ih =>
      intro cells hc
      refine ih _ (sweep_keeps ?_ e.members cells hc)
      intro k c hk
      unfold finishTo
      split
      · exact hk.finish e.frame
      · exact hk
  exact hloop ends n.cells h id

/-- One lane moves. -/
theorem inOrder_update (h : ∀ id, (n.cells id).InOrder) {k : SubscriberId} {c : Cell}
    (hc : c.InOrder) (id : SubscriberId) : (Function.update n.cells k c id).InOrder := by
  rw [Function.update_apply]
  split
  · exact hc
  · exact h id

/-- **The step lemma.** -/
theorem inOrder_step {a : NodeAction} (h : ∀ id, (n.cells id).InOrder)
    (hst : n.step b o a = some n') : ∀ id, (n'.cells id).InOrder := by
  cases fires_of_step hst with
  | admitConnection => exact h
  | insertConnection => exact h
  | registerCheck => exact h
  | registerBody c t => exact inOrder_registerBody h c t
  | unregister c t => exact inOrder_unregister h c t
  | dropConnection c => exact inOrder_dropConnection h c
  | deliverCheck => exact h
  | deliverBody t order payload policy => exact inOrder_deliverBody h t order payload policy
  | disconnect c => exact inOrder_closeAll h _ _
  | quiesceSwap => exact h
  | quiesceSnapshot => exact h
  | reserved => exact h
  | failed => exact h
  | quiesceFinish ends => exact inOrder_finishAll h ends
  | drainPop id => exact inOrder_update h (h id).pop
  | drainSettle id => exact inOrder_update h (h id).settle

end Node

/-! ### The cluster -/

namespace Cluster

variable {b : FrameBuilder} {o : NodeId → RegistryOptions} {s s' : Cluster}

theorem inOrder_of_reaches (h : Reaches (step b o) Unsaturated init s) :
    ∀ i id, ((s.nodes i).cells id).InOrder := by
  refine h.invariant (I := fun s => ∀ i id, ((s.nodes i).cells id).InOrder)
    (fun _ _ => Cell.inOrder_new) ?_
  intro s a s' hreach hall hg hst i
  cases step_turn (wf_of_reaches hreach) hg hst i with
  | created hn => rw [hn]; exact fun _ => Cell.inOrder_new
  | moved hn => exact Node.inOrder_step (hall i) hn
  | delivered hn => exact Node.inOrder_step (hall i) hn
  | reserved hn => exact Node.inOrder_step (hall i) hn
  | passed hn => rw [hn]; exact hall i
  | rested hn => rw [hn]; exact hall i

/-- The end frame in the lane of a subscriber is that of its topic. -/
theorem completion_id (hwf : WF b o s) {i : NodeId} {id : SubscriberId} {t : Topic}
    {c : ConnectionId} {f : Frame}
    (hid : (s.nodes i).state.subscribers.lookup id = some ⟨t, c⟩)
    (hf : .completion f ∈ ((s.nodes i).cells id).history.enqueued) :
    f.id = utf8 (endPrefix ++ t.name) := by
  obtain ⟨-, hq⟩ := hwf.nodes i
  have hcompleted : (s.nodes i).quiesce.completed = true := by
    by_contra hno
    have := hq.silent (by simpa using hno) id _ hf
    cases this
  obtain ⟨g, hg, hgid⟩ := hq.signalled hcompleted id t c hid
  -- the lane ends with its only end frame
  have honly : ∀ x : Frame, .completion x ∈ ((s.nodes i).cells id).history.enqueued →
      ((s.nodes i).cells id).history.enqueued.getLast? = some (.completion x) := by
    intro x hx
    rcases List.eq_nil_or_concat ((s.nodes i).cells id).history.enqueued with hnil | ⟨front, y, hy⟩
    · rw [hnil] at hx
      cases hx
    · rw [List.concat_eq_append] at hy
      rw [hy, List.mem_append, List.mem_singleton] at hx
      rcases hx with hx | rfl
      · have := hq.last id (.completion x) (by rw [hy, List.dropLast_concat]; exact hx)
        cases this
      · rw [hy, List.getLast?_concat]
  have hsame := (honly f hf).symm.trans (honly g hg)
  cases hsame
  exact hgid

/-- **A drain task takes updates of the ledger in its order, then the end frame of its
topic.**  In every run over unsaturated counters, what was taken from the lane of any
subscriber of any node is a part of the ledger of its topic in the order of the
ledger, and behind it at most one frame, the end frame; the stamps increase
throughout. -/
theorem taken_in_order (b : FrameBuilder) (o : NodeId → RegistryOptions)
    (moves : List (Move Cluster ClusterAction)) (s : Cluster)
    (htrace : Trace (step b o) init moves s)
    (hg : ∀ m ∈ moves, m.before.Unsaturated m.action) (i : NodeId) (id : SubscriberId) (t : Topic)
    (c : ConnectionId) (hid : (s.nodes i).state.subscribers.lookup id = some ⟨t, c⟩) :
    (((s.nodes i).cells id).history.popped.map Frame.order).Pairwise (· < ·) ∧
    ∃ ups ends, ((s.nodes i).cells id).history.popped = ups ++ ends ∧
      ups.Sublist ((ledger b moves t).map (entryFrame t)) ∧
      (ends = [] ∨ ∃ f, ends = [f] ∧ f.id = utf8 (endPrefix ++ t.name)) := by
  have hreach := htrace.reaches .start hg
  obtain ⟨hwf, hord⟩ := orderInv_of_reaches hreach
  have horder := inOrder_of_reaches hreach i id
  obtain ⟨ls, σ, hpath, hshown, h⟩ := (follows b o).trace .start explains_init htrace hg
  have hledger : σ.ledger t = ledger b moves t := by
    rw [ledger_of_path hpath, hshown]
    rfl
  have hhanded : ((s.nodes i).cells id).history.handed.Sublist
      ((ledger b moves t).map (entryFrame t)) := by
    obtain ⟨r, hr, rfl⟩ := h.followed.registered i id t c hid
    rw [h.followed.handed i id r hr, ← hledger]
    exact (log_piece σ r).sublist.map _
  refine ⟨?_, ?_⟩
  · have hpopped : ((s.nodes i).cells id).history.popped.Sublist
        (((s.nodes i).cells id).history.enqueued.map Sent.frame) :=
      (List.sublist_append_left _ _).trans horder.taken
    refine ((hord i).sorted id).sublist ?_
    have := hpopped.map Frame.order
    rwa [List.map_map] at this
  · obtain ⟨ups, ends, hsplit, hups, hends⟩ := horder.split ((hwf.nodes i).2.last id)
    refine ⟨ups, ends, hsplit, hups.trans hhanded, hends.imp_right ?_⟩
    rintro ⟨f, hf, hmem⟩
    exact ⟨f, hf, completion_id hwf hid hmem⟩

/-- A subscriber whose drain task took an update and the end frame. -/
theorem taken_after_completion :
    ∃ moves s, Trace (step .total fun _ => .default) init moves s ∧
      ((s.nodes ⟨0⟩).cells ⟨1⟩).history.popped.length = 2 ∧
      (((s.nodes ⟨0⟩).cells ⟨1⟩).history.popped.map Frame.order).Pairwise (· < ·) := by
  have hrun : (runs (restrict (step .total fun _ => .default) Unsaturated) init
        (completingRun Topic.prices ++ [.node ⟨0⟩ (.drainPop ⟨1⟩), .node ⟨0⟩ (.drainPop ⟨1⟩)])).map
        (fun s => ((s.nodes ⟨0⟩).state.subscribers.lookup ⟨1⟩,
          ((s.nodes ⟨0⟩).cells ⟨1⟩).history.popped.length)) =
      some (some ⟨Topic.prices, ⟨1⟩⟩, 2) := by
    decide +kernel
  obtain ⟨s, hrun, hobs⟩ := Option.map_eq_some_iff.mp hrun
  simp only [Prod.mk.injEq] at hobs
  obtain ⟨hid, hlen⟩ := hobs
  obtain ⟨moves, htrace, hg, -⟩ := Trace.of_runs _ hrun
  exact ⟨moves, s, htrace, hlen, (taken_in_order .total (fun _ => .default) moves s htrace hg ⟨0⟩ ⟨1⟩
    Topic.prices ⟨1⟩ hid).1⟩

end Cluster
end Pubsub
end TightbeamExt
