import TightbeamExt.Base.Log
import TightbeamExt.Pubsub.Cluster

/-!
# Completion is last and highest

A quiescing node claims the end stamps after its snapshot, with no registry lock
held, and enqueues the end frames afterwards.  From the snapshot on the node
accepts no update and no subscriber, and a claimed stamp is above every stamp its
lanes have seen, so in each lane the end frame closes the log.

## Main definitions

* `Node.Ordered n bound` — the lanes of a node are sorted and below `bound`, and the
  end stamps it holds are above its lanes.

## Main results

* `Ordered.moved`, `Ordered.delivered`, `Ordered.reserved` — the steps of a node
  keep it.
* `completion_last_and_highest` — **the end frame closes its lane**, in every run of
  any number of nodes.
-/

namespace TightbeamExt
namespace Pubsub

open Transition

/-! ### Sorted lanes -/

/-- The stamps of the frames that entered a lane, in order of entry. -/
def Cell.stamps (c : Cell) : List ℕ := c.history.enqueued.map fun s => s.frame.order

theorem Cell.SameLog.stamps {c c' : Cell} (h : SameLog c c') : c'.stamps = c.stamps := by
  rw [Cell.stamps, Cell.stamps, h.enqueued]

theorem Cell.stamps_finish (f : Frame) (c : Cell) : (c.finish f).stamps = c.stamps ++ [f.order] := by
  simp [Cell.stamps]

theorem Cell.stamps_push (capacity : ℕ) (onFull : DeliveryPolicy) (topic : Topic) (update : Frame)
    (c : Cell) :
    (c.push capacity onFull topic update).1.stamps = c.stamps ∨
      (c.push capacity onFull topic update).1.stamps = c.stamps ++ [update.order] := by
  rcases Cell.enqueued_push capacity onFull topic update c with h | h
  · left; simp [Cell.stamps, h]
  · right; simp [Cell.stamps, h]

namespace Node

/-- The lanes are sorted and below `bound`, and an end stamp waiting to be
enqueued is above the lanes of its topic. -/
structure Ordered (n : Node) (bound : Topic → ℕ) : Prop where
  /-- Every lane is sorted. -/
  sorted : ∀ id, (n.cells id).stamps.Pairwise (· < ·)
  /-- The lane of a subscriber is below the bound of its topic. -/
  below : ∀ id t c, n.state.subscribers.lookup id = some ⟨t, c⟩ →
    ∀ x ∈ (n.cells id).stamps, x ≤ bound t
  /-- So is what was handed to it. -/
  handed : ∀ id t c, n.state.subscribers.lookup id = some ⟨t, c⟩ →
    ∀ f ∈ (n.cells id).history.handed, f.order ≤ bound t
  /-- So are the end stamps. -/
  claimed : ∀ e ∈ n.quiesce.ends, e.order ≤ bound e.topic
  /-- Which are above the lanes. -/
  above : ∀ e ∈ n.quiesce.ends, ∀ id c, n.state.subscribers.lookup id = some ⟨e.topic, c⟩ →
    ∀ x ∈ (n.cells id).stamps, x < e.order

theorem ordered_init (bound : Topic → ℕ) : Ordered init bound where
  sorted := fun _ => List.Pairwise.nil
  below := by intro id t c h; simp [init, State.empty] at h
  handed := by intro id t c h; simp [init, State.empty] at h
  claimed := by intro e he; simp [init, QuiescePc.ends] at he
  above := by intro e he; simp [init, QuiescePc.ends] at he

variable {b : FrameBuilder} {o : RegistryOptions} {n n' : Node} {bound bound' : Topic → ℕ}

theorem Ordered.mono (h : Ordered n bound) (hle : ∀ t, bound t ≤ bound' t) : Ordered n bound' where
  sorted := h.sorted
  below := fun id t c hid x hx => (h.below id t c hid x hx).trans (hle t)
  handed := fun id t c hid f hf => (h.handed id t c hid f hf).trans (hle t)
  claimed := fun e he => (h.claimed e he).trans (hle e.topic)
  above := h.above

theorem Ordered.calm (h : Ordered n bound) (hc : Calm n n') : Ordered n' bound where
  sorted := by
    intro id
    rw [(hc.logs id).stamps]
    exact h.sorted id
  below := by
    intro id t c hid
    rw [(hc.logs id).stamps]
    exact h.below id t c (hc.subscribers id _ hid)
  handed := by
    intro id t c hid
    rw [(hc.logs id).handed]
    exact h.handed id t c (hc.subscribers id _ hid)
  claimed := by rw [hc.quiesce]; exact h.claimed
  above := by
    rw [hc.quiesce]
    intro e he id c hid
    rw [(hc.logs id).stamps]
    exact h.above e he id c (hc.subscribers id _ hid)

theorem ends_of_not_snapshotted {q : QuiescePc} (h : q.snapshotted = false) : q.ends = [] := by
  revert h
  cases q <;> simp [QuiescePc.snapshotted, QuiescePc.ends]

/-- While `register` or `deliver` holds the lock there is no end stamp. -/
theorem QuiesceInv.no_ends (hq : QuiesceInv b n) (hlock : n.lock ≠ .free) : n.quiesce.ends = [] :=
  ends_of_not_snapshotted (hq.not_snapshotted hlock)

/-- A lane of a node without end stamps. -/
theorem ordered_of_no_ends (hends : n.quiesce.ends = [])
    (hsorted : ∀ id, (n.cells id).stamps.Pairwise (· < ·))
    (hbelow : ∀ id t c, n.state.subscribers.lookup id = some ⟨t, c⟩ →
      ∀ x ∈ (n.cells id).stamps, x ≤ bound t)
    (hhanded : ∀ id t c, n.state.subscribers.lookup id = some ⟨t, c⟩ →
      ∀ f ∈ (n.cells id).history.handed, f.order ≤ bound t) : Ordered n bound where
  sorted := hsorted
  below := hbelow
  handed := hhanded
  claimed := by rw [hends]; intro e he; cases he
  above := by rw [hends]; intro e he; cases he

/-- A new subscriber starts with an empty lane. -/
theorem Ordered.register (h : Ordered n bound) (hq : QuiesceInv b n) {c : ConnectionId} {t : Topic}
    (hlock : n.lock = .registering c t) (hu : Unlocks n n')
    (hsub : n'.state.subscribers = n.state.subscribers.insert ⟨n.nextSubscriber⟩ ⟨t, c⟩)
    (hcells : ∀ id, id ≠ ⟨n.nextSubscriber⟩ → n'.cells id = n.cells id)
    (hnew : n'.cells ⟨n.nextSubscriber⟩ = Cell.new) : Ordered n' bound := by
  have hbusy : n.lock ≠ .free := by rw [hlock]; exact fun hf => by cases hf
  refine ordered_of_no_ends (by rw [hu.quiesce]; exact hq.no_ends hbusy) ?_ ?_ ?_
  · intro id
    by_cases hid : id = ⟨n.nextSubscriber⟩
    · rw [hid, hnew]
      exact List.Pairwise.nil
    · rw [hcells id hid]
      exact h.sorted id
  · intro id t' c' hlookup
    by_cases hid : id = ⟨n.nextSubscriber⟩
    · rw [hid, hnew]
      intro x hx
      cases hx
    · rw [hcells id hid]
      rw [hsub, Table.lookup_insert_eq, if_neg hid] at hlookup
      exact h.below id t' c' hlookup
  · intro id t' c' hlookup
    by_cases hid : id = ⟨n.nextSubscriber⟩
    · rw [hid, hnew]
      intro f hf
      cases hf
    · rw [hcells id hid]
      rw [hsub, Table.lookup_insert_eq, if_neg hid] at hlookup
      exact h.handed id t' c' hlookup

/-- The end frames go on top of their lanes. -/
theorem Ordered.finish (h : Ordered n bound) (hq : QuiesceInv b n) {ends : List EndSignal}
    (hr : n.quiesce = .reserving [] ends) : Ordered (n.finishAll ends) bound := by
  have hcov : SnapshotOf n.state (ends.map fun e => (e.topic, e.members)) := by
    have hc := hq.covered _ _ hr
    rw [hr] at hc
    simpa [QuiescePc.snapshot] using hc
  have hmem : ∀ e ∈ ends, e ∈ n.quiesce.ends := fun e he => by rw [hr]; exact he
  -- a subscriber left gets the end frame of its topic, anybody else nothing
  have hlane : ∀ id, (n.state.subscribers.lookup id = none ∧
        (n.finishAll ends).cells id = n.cells id) ∨
      ∃ e ∈ ends, ∃ c, n.state.subscribers.lookup id = some ⟨e.topic, c⟩ ∧
        ((n.finishAll ends).cells id).history.handed = (n.cells id).history.handed ∧
        ((n.finishAll ends).cells id).stamps = (n.cells id).stamps ++ [e.order] := by
    intro id
    cases hsub : n.state.subscribers.lookup id with
    | none => exact .inl ⟨rfl, finishCells_of_absent _ _ fun _ _ _ => hsub⟩
    | some sub =>
      obtain ⟨t, c⟩ := sub
      obtain ⟨e, he, rfl, hfin⟩ := finishCells_of_registered hcov n.cells hsub
      refine .inr ⟨e, he, c, rfl, ?_, ?_⟩
      · show (finishCells n.state ends n.cells id).history.handed = _
        rw [hfin, Cell.handed_finish]
      · show (finishCells n.state ends n.cells id).stamps = _
        rw [hfin, Cell.stamps_finish, order_of_endFrame (hq.frames e (hmem e he))]
  refine ordered_of_no_ends rfl ?_ ?_ ?_
  · intro id
    rcases hlane id with ⟨-, hkeep⟩ | ⟨e, he, c, hid, -, hstamps⟩
    · rw [hkeep]
      exact h.sorted id
    · rw [hstamps]
      exact List.pairwise_concat (h.sorted id) (h.above e (hmem e he) id c hid)
  · intro id t c hid
    rw [subscribers_finishAll] at hid
    rcases hlane id with ⟨hnone, -⟩ | ⟨e, he, c', hid', -, hstamps⟩
    · rw [hnone] at hid
      cases hid
    · rw [hid] at hid'
      cases hid'
      rw [hstamps]
      intro x hx
      rw [List.mem_append, List.mem_singleton] at hx
      rcases hx with hx | rfl
      · exact h.below id e.topic c hid x hx
      · exact h.claimed e (hmem e he)
  · intro id t c hid
    rw [subscribers_finishAll] at hid
    rcases hlane id with ⟨hnone, -⟩ | ⟨e, he, c', -, hhanded, -⟩
    · rw [hnone] at hid
      cases hid
    · rw [hhanded]
      exact h.handed id t c hid

/-- A step that carries no stamp keeps the node below the same bound. -/
theorem Ordered.moved {a : NodeAction} (h : Ordered n bound) (hi : Inv o n) (hq : QuiesceInv b n)
    (hst : n.step b o a = some n') (ha : a.stamps = false) : Ordered n' bound := by
  cases step_effect hi hst with
  | calm _ hc => exact h.calm hc
  | refuse => cases ha
  | register hlock hu hsub _ hcells hnew => exact h.register hq hlock hu hsub hcells hnew
  | deliver => cases ha
  | swap hn =>
    subst hn
    cases hd : n.draining with
    | true => exact ⟨h.sorted, h.below, h.handed, h.claimed, h.above⟩
    | false => exact ordered_of_no_ends rfl h.sorted h.below h.handed
  | snapshot _ _ hn => subst hn; exact ordered_of_no_ends rfl h.sorted h.below h.handed
  | reserve => cases ha
  | fail => cases ha
  | finish _ hr hn => subst hn; exact h.finish hq hr

/-- A delivered update goes on top of its lanes. -/
theorem Ordered.delivered (h : Ordered n bound) (hi : Inv o n) (hq : QuiesceInv b n) {t : Topic}
    {order : ℕ} {payload : Octets} {policy : SubscriberId → DeliveryPolicy}
    (hst : n.step b o (.deliverBody t order payload policy) = some n') (hlt : bound t < order)
    (hle : ∀ t', bound t' ≤ bound' t')
    (hok : ∀ f, updateFrame b t order payload = .ok f → order ≤ bound' t) : Ordered n' bound' := by
  cases step_effect hi hst with
  | calm ha => cases ha
  | refuse _ hc => exact (h.calm hc).mono hle
  | deliver hlock hu hf hsub hnext hpush hkeep =>
    rename_i f
    have hbusy : n.lock ≠ .free := by rw [hlock]; exact fun hf => by cases hf
    -- the stamps of a lane: one more at most, and only in lanes of the topic
    have hlane : ∀ id, (n'.cells id).stamps = (n.cells id).stamps ∨
        (∃ c, n.state.subscribers.lookup id = some ⟨t, c⟩) ∧
          (n'.cells id).stamps = (n.cells id).stamps ++ [order] := by
      intro id
      by_cases hid : ∃ c, n.state.subscribers.lookup id = some ⟨t, c⟩
      · obtain ⟨c, hc⟩ := hid
        obtain ⟨capacity, hcell⟩ := hpush id c hc
        rw [hcell, ← order_of_updateFrame hf]
        rcases Cell.stamps_push capacity (policy id) t f (n.cells id) with hlog | hlog
        · exact .inl hlog
        · exact .inr ⟨⟨c, hc⟩, hlog⟩
      · rw [hkeep id fun c hc => hid ⟨c, hc⟩]
        exact .inl rfl
    refine ordered_of_no_ends (by rw [hu.quiesce]; exact hq.no_ends hbusy) ?_ ?_ ?_
    · intro id
      rcases hlane id with hlog | ⟨⟨c, hc⟩, hlog⟩
      · rw [hlog]
        exact h.sorted id
      · rw [hlog]
        exact List.pairwise_concat (h.sorted id) fun y hy => (h.below id t c hc y hy).trans_lt hlt
    · intro id t' c' hid x hx
      rw [hsub] at hid
      rcases hlane id with hlog | ⟨⟨c, hc⟩, hlog⟩
      · rw [hlog] at hx
        exact (h.below id t' c' hid x hx).trans (hle t')
      · rw [hid] at hc
        cases hc
        rw [hlog, List.mem_append, List.mem_singleton] at hx
        rcases hx with hx | rfl
        · exact (h.below id t c' hid x hx).trans (hle t)
        · exact hok f hf
    · intro id t' c' hid g hg
      rw [hsub] at hid
      by_cases ht : t' = t
      · subst ht
        obtain ⟨capacity, hcell⟩ := hpush id c' hid
        rw [hcell, Cell.handed_push, List.mem_append, List.mem_singleton] at hg
        rcases hg with hg | rfl
        · exact (h.handed id t' c' hid g hg).trans (hle t')
        · rw [order_of_updateFrame hf]
          exact hok g hf
      · rw [hkeep id fun c hc => by rw [hid] at hc; cases hc; exact ht rfl] at hg
        exact (h.handed id t' c' hid g hg).trans (hle t')

/-- A claimed end stamp is above the lanes of its topic. -/
theorem Ordered.reserved (h : Ordered n bound) (hi : Inv o n) {t : Topic} {order : ℕ}
    (hst : n.step b o (.quiesceReserve order) = some n') (ht : n.quiesce.stamping = some t)
    (hlt : bound t < order) (hle : ∀ t', bound t' ≤ bound' t') (hok : order ≤ bound' t) :
    Ordered n' bound' := by
  cases step_effect hi hst with
  | calm ha => cases ha
  | fail _ hn =>
    subst hn
    exact ordered_of_no_ends rfl h.sorted (h.mono hle).below (h.mono hle).handed
  | reserve hr hf hn =>
    subst hn
    rename_i members todo ends f
    rw [hr] at ht
    cases ht
    have hends : ∀ e ∈ ends, e ∈ n.quiesce.ends := fun e he => by rw [hr]; exact he
    exact {
      sorted := h.sorted
      below := (h.mono hle).below
      handed := (h.mono hle).handed
      claimed := by
        intro e he
        simp only [QuiescePc.ends, List.mem_append, List.mem_singleton] at he
        rcases he with he | rfl
        · exact (h.mono hle).claimed e (hends e he)
        · exact hok
      above := by
        intro e he id c hid
        simp only [QuiescePc.ends, List.mem_append, List.mem_singleton] at he
        rcases he with he | rfl
        · exact h.above e (hends e he) id c hid
        · exact fun x hx => (h.below id t c hid x hx).trans_lt hlt }

/-- From the snapshot on no subscriber comes. -/
theorem subscribers_of_snapshotted {a : NodeAction} (hi : Inv o n) (hq : QuiesceInv b n)
    (hst : n.step b o a = some n') (hs : n.quiesce.snapshotted = true) (id : SubscriberId)
    (sub : Subscriber) (hid : n'.state.subscribers.lookup id = some sub) :
    n.state.subscribers.lookup id = some sub := by
  cases step_effect hi hst with
  | calm _ hc => exact hc.subscribers id sub hid
  | refuse _ hc => exact hc.subscribers id sub hid
  | register hlock _ _ _ _ _ =>
    have := hq.idle hs
    rw [hlock] at this
    cases this
  | deliver _ _ _ hsub _ _ _ => rwa [hsub] at hid
  | swap hn => rw [hn] at hid; exact hid
  | snapshot _ _ hn => rw [hn] at hid; exact hid
  | reserve _ _ hn => rw [hn] at hid; exact hid
  | fail _ hn => rw [hn] at hid; exact hid
  | finish _ _ hn => rwa [hn, subscribers_finishAll] at hid

end Node

/-! ### The cluster -/

namespace Cluster

variable {b : FrameBuilder} {o : NodeId → RegistryOptions} {s s' : Cluster}

/-- Every node is ordered below its ceiling. -/
def OrderInv (s : Cluster) : Prop := ∀ j, (s.nodes j).Ordered (s.ceiling j)

theorem orderInv_init : OrderInv init := fun _ => Node.ordered_init _

/-- **The step lemma.** -/
theorem orderInv_step {a : ClusterAction} (hwf : WF b o s) (h : OrderInv s)
    (hg : s.Unsaturated a) (hst : s.step b o a = some s') : OrderInv s' := by
  intro j
  obtain ⟨hi, hq⟩ := hwf.nodes j
  cases step_turn hwf hg hst j with
  | created hn => rw [hn]; exact Node.ordered_init _
  | moved hn ha _ hc => rw [hc]; exact (h j).moved hi hq hn ha
  | delivered hn hlive horder hc =>
    rename_i p
    refine (h j).delivered hi hq hn (by omega) ?_ ?_
    · intro t
      rw [hc]
      split
      · next ht => rw [ht.1]; omega
      · exact le_rfl
    · intro f hf
      have hok : (delivery b p).isOk = true := by
        simp [delivery, hf, Except.isOk, Except.toBool]
      rw [hc, if_pos ⟨rfl, hok⟩]
  | reserved hn hq horder hc =>
    refine (h j).reserved hi hn hq (by omega) ?_ (by rw [hc, if_pos rfl])
    intro t'
    rw [hc]
    split
    · next ht => rw [ht]; omega
    · exact le_rfl
  | passed hn _ _ hc =>
    rw [hn]
    refine (h j).mono ?_
    intro t'
    rw [hc]
    split
    · next ht => rw [ht]; omega
    · exact le_rfl
  | rested hn _ hle _ => rw [hn]; exact (h j).mono hle

theorem orderInv_of_reaches (h : Reaches (step b o) Unsaturated init s) :
    WF b o s ∧ OrderInv s :=
  h.invariant (I := fun s => WF b o s ∧ OrderInv s) ⟨wf_init b o, orderInv_init⟩
    fun _ _ _ _ hi hg hst => ⟨wf_step hi.1 hg hst, orderInv_step hi.1 hi.2 hg hst⟩

/-- A frame before the last one. -/
theorem mem_dropLast_of_getElem? {α : Type*} {l : List α} {k : ℕ} {x : α} (hk : l[k]? = some x)
    (hlt : k + 1 < l.length) : x ∈ l.dropLast := by
  refine List.mem_of_getElem? (i := k) ?_
  rw [List.getElem?_dropLast, if_pos (by omega)]
  exact hk

/-- **Completion is last and highest.**  In every run over unsaturated counters,
for every node and every lane: the stamps strictly increase; an end frame is the
last frame; it is stamped above every update; no subscriber comes after the
snapshot; and once the end frames are out every subscriber left has its own. -/
theorem completion_last_and_highest (b : FrameBuilder) (o : NodeId → RegistryOptions) (s : Cluster)
    (hreach : Reaches (step b o) Unsaturated init s) (i : NodeId) :
    (∀ id, (((s.nodes i).cells id).history.enqueued.map fun x => x.frame.order).Pairwise (· < ·)) ∧
    (∀ id k f, ((s.nodes i).cells id).history.enqueued[k]? = some (.completion f) →
      k + 1 = ((s.nodes i).cells id).history.enqueued.length) ∧
    (∀ id f u, .completion f ∈ ((s.nodes i).cells id).history.enqueued →
      .update u ∈ ((s.nodes i).cells id).history.enqueued → u.order < f.order) ∧
    ((s.nodes i).quiesce.snapshotted = true → ∀ a s', s.Unsaturated a →
      s.step b o a = some s' → ∀ id sub,
      (s'.nodes i).state.subscribers.lookup id = some sub →
      (s.nodes i).state.subscribers.lookup id = some sub) ∧
    ((s.nodes i).quiesce.completed = true → (s.nodes i).AllSignalled) := by
  obtain ⟨hwf, hord⟩ := orderInv_of_reaches hreach
  obtain ⟨hi, hq⟩ := hwf.nodes i
  have hlast : ∀ id k f, ((s.nodes i).cells id).history.enqueued[k]? = some (.completion f) →
      k + 1 = ((s.nodes i).cells id).history.enqueued.length := by
    intro id k f hk
    by_contra hne
    have hlen := (List.getElem?_eq_some_iff.mp hk).1
    have := hq.last id _ (mem_dropLast_of_getElem? hk (by omega))
    cases this
  refine ⟨(hord i).sorted, hlast, ?_, ?_, hq.signalled⟩
  · intro id f u hf hu
    obtain ⟨k, hk⟩ := List.mem_iff_getElem?.mp hf
    obtain ⟨m, hm⟩ := List.mem_iff_getElem?.mp hu
    have hkl := hlast id k f hk
    have hml := (List.getElem?_eq_some_iff.mp hm).1
    have hne : m ≠ k := by
      rintro rfl
      rw [hk] at hm
      cases hm
    have hsorted := List.pairwise_iff_getElem.mp ((hord i).sorted id) m k (by simpa [Cell.stamps])
      (by simp only [Cell.stamps, List.length_map]; omega) (by omega)
    simpa [Cell.stamps, (List.getElem?_eq_some_iff.mp hk).2,
      (List.getElem?_eq_some_iff.mp hm).2] using hsorted
  · intro hs a s' hg hst id sub hid
    cases step_turn hwf hg hst i with
    | created hn =>
      rw [hn] at hid
      simp [Node.init, State.empty] at hid
    | moved hn _ _ _ => exact Node.subscribers_of_snapshotted hi hq hn hs id sub hid
    | delivered hn _ _ _ => exact Node.subscribers_of_snapshotted hi hq hn hs id sub hid
    | reserved hn _ _ _ => exact Node.subscribers_of_snapshotted hi hq hn hs id sub hid
    | passed hn _ _ _ => rwa [hn] at hid
    | rested hn _ _ _ => rwa [hn] at hid

/-- A node is attached and gets one subscriber. -/
def joining (i : NodeId) (t : Topic) : List ClusterAction :=
  .attach :: (Node.subscribing t).map (.node i)

/-- A publish through node `i` that reaches one sink. -/
def publishingOnce (i : NodeId) (t : Topic) : List ClusterAction :=
  [.publishCall i t [], .publishLock 0, .visit, .fanOut fun _ => dropOldest, .leave, .settle]

/-- One subscriber gets one update and its end frame. -/
def completingRun (t : Topic) : List ClusterAction :=
  joining ⟨0⟩ t ++ publishingOnce ⟨0⟩ t ++
    [.node ⟨0⟩ .quiesceSwap, .node ⟨0⟩ .quiesceSnapshot, .reserve ⟨0⟩, .node ⟨0⟩ .quiesceFinish]

/-- The lane of that subscriber holds both frames, the end frame last and highest. -/
theorem completion_last_after_publish :
    ∃ s, Reaches (step .total fun _ => .default) Unsaturated init s ∧
      ∃ u f, ((s.nodes ⟨0⟩).cells ⟨1⟩).history.enqueued = [.update u, .completion f] ∧
        u.order < f.order := by
  obtain ⟨s, hrun⟩ : ∃ s, runs (restrict (step .total fun _ => .default) Unsaturated) init
      (completingRun Topic.prices) = some s := ⟨_, rfl⟩
  have hreach : Reaches (step .total fun _ => .default) Unsaturated init s :=
    Reaches.of_runs _ .start hrun
  have hlog : ((s.nodes ⟨0⟩).cells ⟨1⟩).history.enqueued =
      [.update ⟨utf8 Topic.prices.name, 1, []⟩,
        .completion ⟨utf8 (endPrefix ++ Topic.prices.name), 2, []⟩] := by
    cases hrun; rfl
  refine ⟨s, hreach, _, _, hlog, ?_⟩
  exact (completion_last_and_highest .total (fun _ => .default) s hreach ⟨0⟩).2.2.1 ⟨1⟩ _ _
    (by rw [hlog]; exact List.mem_cons_of_mem _ List.mem_cons_self)
    (by rw [hlog]; exact List.mem_cons_self)

end Cluster
end Pubsub
end TightbeamExt
