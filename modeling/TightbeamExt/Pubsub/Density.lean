import TightbeamExt.Pubsub.Completion

/-!
# Dense stamps

`fan_out` hands every subscriber of a topic every update its node accepts, and
every node that is not draining accepts every update that burns a stamp.  The
stamps a subscriber is handed are therefore consecutive — as long as stamps are
claimed by publishes.  A quiescing node claims its end stamps from the same
counters, and no other node ever sees them: to a subscriber elsewhere the stamp is
missing.

## Main definitions

* `Spares s a` — the step claims no end stamp of a topic that a subscriber on a live,
  not quiescing node was handed an update of.
* `Node.Dense n live bound` — the stamps handed are consecutive up to `bound`.

## Main results

* `handed_orders_dense_of_spared` — **stamps are dense in the runs that spare them**, and
  what a step that does not spare them does to the next one.
* `handed_orders_skip_end_stamp` — one node's shutdown is a hole on another node.
-/

namespace TightbeamExt
namespace Pubsub

open Transition

/-! ### Consecutive stamps -/

/-- The stamps of the updates handed to a lane. -/
def Cell.handedStamps (c : Cell) : List ℕ := c.history.handed.map Frame.order

/-- Each is the successor of the one before. -/
def Consecutive (l : List ℕ) : Prop := l.IsChain fun x y => y = x + 1

theorem consecutive_concat {l : List ℕ} {x : ℕ} (h : Consecutive l)
    (hx : ∀ y ∈ l.getLast?, x = y + 1) : Consecutive (l ++ [x]) := by
  unfold Consecutive
  rw [List.isChain_append]
  refine ⟨h, List.isChain_singleton x, ?_⟩
  intro y hy z hz
  simp only [List.head?_cons, Option.mem_def, Option.some.injEq] at hz
  rw [← hz]
  exact hx y hy

theorem Cell.SameLog.handedStamps {c c' : Cell} (h : SameLog c c') :
    c'.handedStamps = c.handedStamps := by
  rw [Cell.handedStamps, Cell.handedStamps, h.handed]

theorem Cell.handedStamps_push (capacity : ℕ) (onFull : DeliveryPolicy) (topic : Topic)
    (update : Frame) (c : Cell) :
    (c.push capacity onFull topic update).1.handedStamps = c.handedStamps ++ [update.order] := by
  simp [Cell.handedStamps]

namespace Node

/-- On a node that is not draining: what a subscriber was handed is consecutive,
and while the node is live it ends at the bound of its topic. -/
structure Dense (n : Node) (live : Bool) (bound : Topic → ℕ) : Prop where
  /-- Nothing is missing. -/
  chain : n.draining = false → ∀ id t c, n.state.subscribers.lookup id = some ⟨t, c⟩ →
    Consecutive (n.cells id).handedStamps
  /-- The last one is the newest. -/
  top : live = true → n.draining = false → ∀ id t c,
    n.state.subscribers.lookup id = some ⟨t, c⟩ →
    ∀ x ∈ (n.cells id).handedStamps.getLast?, x = bound t

theorem dense_init (live : Bool) (bound : Topic → ℕ) : Dense init live bound where
  chain := by intro _ id t c h; simp [init, State.empty] at h
  top := by intro _ _ id t c h; simp [init, State.empty] at h

variable {b : FrameBuilder} {o : RegistryOptions} {n n' : Node} {live : Bool}
  {bound bound' : Topic → ℕ}

theorem dense_of_draining (h : n.draining = true) : Dense n live bound where
  chain := by intro hd; rw [h] at hd; cases hd
  top := by intro _ hd; rw [h] at hd; cases hd

theorem Dense.calm (h : Dense n live bound) (hc : Calm n n') : Dense n' live bound where
  chain := by
    intro hd id t c hid
    rw [(hc.logs id).handedStamps]
    exact h.chain (hc.draining ▸ hd) id t c (hc.subscribers id _ hid)
  top := by
    intro hl hd id t c hid
    rw [(hc.logs id).handedStamps]
    exact h.top hl (hc.draining ▸ hd) id t c (hc.subscribers id _ hid)

/-- The call of `quiesce` only runs on a draining node. -/
theorem QuiesceInv.draining_of_ne_idle (hq : QuiesceInv b n) (h : n.quiesce.begun = true) :
    n.draining = true := hq.flag.trans h

/-- A step that carries no stamp leaves the node dense below the same bound. -/
theorem Dense.moved {a : NodeAction} (h : Dense n live bound) (hi : Inv o n) (hq : QuiesceInv b n)
    (hst : n.step b o a = some n') (ha : a.stamps = false) : Dense n' live bound := by
  cases step_effect hi hst with
  | calm _ hc => exact h.calm hc
  | refuse => cases ha
  | register hlock hu hsub hnext hcells hnew =>
    rename_i c₀ t₀
    -- the new subscriber was handed nothing, the others keep what they have
    have hold : ∀ id t c, n'.state.subscribers.lookup id = some ⟨t, c⟩ →
        n'.cells id = Cell.new ∨
          (n.state.subscribers.lookup id = some ⟨t, c⟩ ∧ n'.cells id = n.cells id) := by
      intro id t c hid
      by_cases hfresh : id = ⟨n.nextSubscriber⟩
      · exact .inl (by rw [hfresh]; exact hnew)
      · rw [hsub, Table.lookup_insert_eq, if_neg hfresh] at hid
        exact .inr ⟨hid, hcells id hfresh⟩
    refine ⟨?_, ?_⟩
    · intro hd id t c hid
      rcases hold id t c hid with hnil | ⟨hid', hsame⟩
      · rw [hnil]
        exact List.isChain_nil
      · rw [hsame]
        exact h.chain (hu.draining ▸ hd) id t c hid'
    · intro hl hd id t c hid
      rcases hold id t c hid with hnil | ⟨hid', hsame⟩
      · rw [hnil]
        intro x hx
        cases hx
      · rw [hsame]
        exact h.top hl (hu.draining ▸ hd) id t c hid'
  | deliver => cases ha
  | swap hn => subst hn; exact dense_of_draining rfl
  | snapshot _ hr hn =>
    subst hn
    exact dense_of_draining (hq.draining_of_ne_idle (by rw [hr]; rfl))
  | reserve => cases ha
  | fail => cases ha
  | finish _ hr hn =>
    subst hn
    exact dense_of_draining (hq.draining_of_ne_idle (by rw [hr]; rfl))

/-- The next stamp, delivered to a live node, leaves it dense below that stamp. -/
theorem Dense.delivered (h : Dense n true bound) (hi : Inv o n) {t : Topic} {order : ℕ}
    {payload : Octets} {policy : SubscriberId → DeliveryPolicy}
    (hst : n.step b o (.deliverBody t order payload policy) = some n') (hnext : order = bound t + 1)
    (hother : ∀ t', t' ≠ t → bound' t' = bound t')
    (hok : ∀ f, updateFrame b t order payload = .ok f → bound' t = order)
    (herr : ∀ cause, updateFrame b t order payload = .error cause → bound' t = bound t) :
    Dense n' live bound' := by
  cases step_effect hi hst with
  | calm ha => cases ha
  | refuse hcause hc =>
    have hbound : bound' = bound := by
      funext t'
      by_cases ht : t' = t
      · rw [ht]; exact herr _ hcause
      · exact hother t' ht
    rw [hbound]
    exact ⟨(h.calm hc).chain, fun _ => (h.calm hc).top rfl⟩
  | deliver hlock hu hf hsub hn hpush hkeep =>
    rename_i f
    -- subscribers of the topic got the stamp, the others nothing
    have hlane : ∀ id t' c, n.state.subscribers.lookup id = some ⟨t', c⟩ →
        (n'.cells id).handedStamps =
          if t' = t then (n.cells id).handedStamps ++ [order] else (n.cells id).handedStamps := by
      intro id t' c hid
      split
      · next ht =>
        subst ht
        obtain ⟨capacity, hcell⟩ := hpush id c hid
        rw [hcell, Cell.handedStamps_push, order_of_updateFrame hf]
      · next ht =>
        rw [hkeep id fun c' hc' => ht (by rw [hid] at hc'; cases hc'; rfl)]
    refine ⟨?_, ?_⟩
    · intro hd id t' c hid
      rw [hsub] at hid
      rw [hu.draining] at hd
      rw [hlane id t' c hid]
      split
      · next ht =>
        refine consecutive_concat (h.chain hd id t' c hid) ?_
        intro y hy
        rw [hnext, h.top rfl hd id t' c hid y hy, ht]
      · exact h.chain hd id t' c hid
    · intro _ hd id t' c hid x hx
      rw [hsub] at hid
      rw [hu.draining] at hd
      rw [hlane id t' c hid] at hx
      split at hx
      · next ht =>
        rw [List.getLast?_concat, Option.mem_def, Option.some.injEq] at hx
        rw [ht, hok f hf, ← hx]
      · next ht =>
        rw [hother t' ht]
        exact h.top rfl hd id t' c hid x hx

end Node

/-! ### The cluster -/

namespace Cluster

variable {b : FrameBuilder} {o : NodeId → RegistryOptions} {s s' : Cluster}

/-- The step claims no end stamp of a topic that a subscriber on a live, not
quiescing node was handed an update of. -/
def Spares (s : Cluster) : ClusterAction → Prop
  | .reserve i => ∀ t, (s.nodes i).quiesce.stamping = some t → ∀ j, s.live j = true →
      (s.nodes j).quiesce.begun = false → ∀ id c,
      (s.nodes j).state.subscribers.lookup id = some ⟨t, c⟩ →
      ((s.nodes j).cells id).history.handed = []
  | _ => True

/-- Every node is dense below its ceiling. -/
def DenseInv (s : Cluster) : Prop := ∀ j, (s.nodes j).Dense (s.live j) (s.ceiling j)

theorem denseInv_init : DenseInv init := fun _ => Node.dense_init _ _

/-- **The step lemma.** -/
theorem denseInv_step {a : ClusterAction} (hwf : WF b o s) (h : DenseInv s)
    (hg : s.Unsaturated a) (hspare : s.Spares a) (hst : s.step b o a = some s') : DenseInv s' := by
  intro j
  obtain ⟨hi, hq⟩ := hwf.nodes j
  cases step_turn hwf hg hst j with
  | created hn => rw [hn]; exact Node.dense_init _ _
  | moved hn ha hl hc => rw [hl, hc]; exact (h j).moved hi hq hn ha
  | delivered hn hlive horder hc =>
    have hj := h j
    rw [hlive] at hj
    refine hj.delivered hi hn horder ?_ ?_ ?_
    · intro t' ht'
      rw [hc, if_neg fun hin => ht' hin.1]
    · intro f hf
      rw [hc, if_pos ⟨rfl, by simp [delivery, hf, Except.isOk, Except.toBool]⟩]
    · intro cause hcause
      rw [hc, if_neg]
      rintro ⟨-, hok⟩
      simp [delivery, hcause, Except.isOk, Except.toBool] at hok
  | reserved hn hs _ _ =>
    -- a node that claims end stamps is draining
    refine Node.dense_of_draining ?_
    by_contra hd
    have hbegun : (s.nodes j).quiesce.begun = true := by
      revert hs
      cases (s.nodes j).quiesce <;> simp [QuiescePc.stamping, QuiescePc.begun]
    have := draining_mono hi hn (by simpa using hd)
    rw [hq.flag, hbegun] at this
    cases this
  | passed hn hl hs hc =>
    rename_i i t
    rw [hn, hl]
    refine ⟨(h j).chain, ?_⟩
    intro hlive hd id t' c hid x hx
    rw [hc]
    split
    · next ht =>
      have hnil : ((s.nodes j).cells id).history.handed = [] :=
        hspare t hs j hlive (hq.flag.symm.trans hd) id c (by rw [hid, ht])
      simp [Cell.handedStamps, hnil] at hx
    · exact (h j).top hlive hd id t' c hid x hx
  | rested hn hl _ hc =>
    rw [hn]
    refine ⟨(h j).chain, ?_⟩
    intro hlive hd
    rw [hc hlive (by rw [hn]; exact hd)]
    exact (h j).top (hl hlive) hd

theorem denseInv_of_reaches
    (h : Reaches (step b o) (fun s a => s.Unsaturated a ∧ s.Spares a) init s) :
    WF b o s ∧ DenseInv s :=
  h.invariant (I := fun s => WF b o s ∧ DenseInv s) ⟨wf_init b o, denseInv_init⟩
    fun _ _ _ _ hi hg hst => ⟨wf_step hi.1 hg.1 hst, denseInv_step hi.1 hi.2 hg.1 hg.2 hst⟩

/-- What a subscriber of node `i` was handed, update after update, is stamped
consecutively. -/
def HandedDense (s : Cluster) (i : NodeId) (id : SubscriberId) : Prop :=
  ∀ k f g, ((s.nodes i).cells id).history.handed[k]? = some f →
    ((s.nodes i).cells id).history.handed[k + 1]? = some g → g.order = f.order + 1

theorem handedDense_of_consecutive {i : NodeId} {id : SubscriberId}
    (h : Consecutive ((s.nodes i).cells id).handedStamps) : s.HandedDense i id := by
  intro k f g hf hg
  rw [Consecutive, List.isChain_iff_getElem] at h
  obtain ⟨hk, hfk⟩ := List.getElem?_eq_some_iff.mp hf
  obtain ⟨hk', hgk⟩ := List.getElem?_eq_some_iff.mp hg
  have := h k (by simpa [Cell.handedStamps] using hk')
  simpa [Cell.handedStamps, hfk, hgk] using this

/-- An end stamp claimed elsewhere: the node stays and the counter is one up. -/
theorem reserve_elsewhere {i j : NodeId} {t : Topic} (hg : s.Unsaturated (.reserve i))
    (hst : s.step b o (.reserve i) = some s') (hs : (s.nodes i).quiesce.stamping = some t)
    (hij : j ≠ i) :
    s'.nodes j = s.nodes j ∧ s'.live j = s.live j ∧ s'.lastOrder t = s.ceiling j t + 1 := by
  simp only [step, reserve] at hst
  split at hst
  · next t' hpub _ ht' =>
    rw [hs, Option.some.injEq] at ht'
    subst ht'
    rw [Option.map_eq_some_iff] at hst
    obtain ⟨n, -, rfl⟩ := hst
    refine ⟨nodes_setNode_of_ne hij n, rfl, ?_⟩
    rw [ceiling_of_idle hpub, ← saturatingSucc_of_lt (hg t (by simp [stamped, hs]))]
    exact (lastOrder_insert s t t _).trans (if_pos rfl)
  · cases hst

/-- **Stamps are dense in the runs that spare them.**  In every run that claims no
stamp from a saturated counter and no end stamp of a topic that was handed out
elsewhere, every subscriber of a node that is not quiescing is handed consecutive
stamps.  A step that claims such an end stamp puts the next stamp of the topic past
the successor of what some subscriber was handed last; whether a later update is
handed to it is left open. -/
theorem handed_orders_dense_of_spared (b : FrameBuilder) (o : NodeId → RegistryOptions) :
    (∀ s, Reaches (step b o) (fun s a => s.Unsaturated a ∧ s.Spares a) init s →
      ∀ i id t c, (s.nodes i).quiesce.begun = false →
      (s.nodes i).state.subscribers.lookup id = some ⟨t, c⟩ → s.HandedDense i id) ∧
    (∀ s s' a, Reaches (step b o) Unsaturated init s → s.Unsaturated a →
      s.step b o a = some s' → ¬ s.Spares a →
      ∃ j id t c f, s'.live j = true ∧ (s'.nodes j).quiesce.begun = false ∧
        (s'.nodes j).state.subscribers.lookup id = some ⟨t, c⟩ ∧
        f ∈ ((s'.nodes j).cells id).history.handed.getLast? ∧
        (s'.lastOrder t < u64Max → f.order + 1 < saturatingSucc (s'.lastOrder t))) := by
  refine ⟨?_, ?_⟩
  · intro s hreach i id t c hq hid
    obtain ⟨hwf, hdense⟩ := denseInv_of_reaches hreach
    refine handedDense_of_consecutive ((hdense i).chain ?_ id t c hid)
    rw [(hwf.nodes i).2.flag]
    exact hq
  · intro s s' a hreach hg hst hspare
    obtain ⟨hwf, hord⟩ := orderInv_of_reaches hreach
    cases a with
    | reserve i =>
      simp only [Spares] at hspare
      push Not at hspare
      obtain ⟨t, hs, j, hlive, hbegun, id, c, hid, hne⟩ := hspare
      obtain ⟨f, hf⟩ := Option.ne_none_iff_exists'.mp (mt List.getLast?_eq_none_iff.mp hne)
      -- the quiescing node is another one
      have hij : j ≠ i := by
        rintro rfl
        revert hs hbegun
        cases (s.nodes j).quiesce <;> simp [QuiescePc.stamping, QuiescePc.begun]
      obtain ⟨hn, hl, horder⟩ := reserve_elsewhere hg hst hs hij
      refine ⟨j, id, t, c, f, by rw [hl]; exact hlive, by rw [hn]; exact hbegun,
        by rw [hn]; exact hid, by rw [hn]; exact hf, ?_⟩
      intro hlt
      have hle := (hord j).handed id t c hid f (List.mem_of_getLast? hf)
      rw [saturatingSucc_of_lt hlt]
      omega
    | _ => exact absurd trivial hspare

/-! ### One node's shutdown is a hole on another node -/

/-- A publish through node `i` that reaches two sinks. -/
def publishingTwice (i : NodeId) (t : Topic) : List ClusterAction :=
  [.publishCall i t [], .publishLock 0, .visit, .fanOut fun _ => dropOldest, .leave, .visit,
    .fanOut fun _ => dropOldest, .leave, .settle]

/-- Two nodes with a subscriber each; the first one quiesces between two
publishes. -/
def shutdownRun (t : Topic) : List ClusterAction :=
  joining ⟨0⟩ t ++ joining ⟨1⟩ t ++ publishingTwice ⟨0⟩ t ++
    [.node ⟨0⟩ .quiesceSwap, .node ⟨0⟩ .quiesceSnapshot, .reserve ⟨0⟩, .node ⟨0⟩ .quiesceFinish] ++
    [.publishCall ⟨1⟩ t [], .publishLock 0, .visit, .visit, .fanOut fun _ => dropOldest, .leave,
      .settle]

/-- **The end stamp of a shut down node is missing on the other one**: its
subscriber is handed the stamps 1 and 3. -/
theorem handed_orders_skip_end_stamp :
    ¬ ∀ (b : FrameBuilder) (o : NodeId → RegistryOptions) (s : Cluster),
      Reachable (step b o) init s → ∀ i id t c, (s.nodes i).quiesce.begun = false →
      (s.nodes i).state.subscribers.lookup id = some ⟨t, c⟩ → s.HandedDense i id := by
  intro h
  -- what the run leaves of the second node and its subscriber
  have hrun : (runs (step .total fun _ => .default) init (shutdownRun Topic.prices)).map (fun s =>
        ((s.nodes ⟨1⟩).quiesce.begun, (s.nodes ⟨1⟩).state.subscribers.lookup ⟨1⟩,
          ((s.nodes ⟨1⟩).cells ⟨1⟩).history.handed)) =
      some (false, some ⟨Topic.prices, ⟨1⟩⟩,
        [⟨utf8 Topic.prices.name, 1, []⟩, ⟨utf8 Topic.prices.name, 3, []⟩]) := by
    decide +kernel
  obtain ⟨s, hrun, hobs⟩ := Option.map_eq_some_iff.mp hrun
  simp only [Prod.mk.injEq] at hobs
  obtain ⟨hbegun, hid, hhanded⟩ := hobs
  have hdense := h .total (fun _ => .default) s (.of_runs hrun) ⟨1⟩ ⟨1⟩ Topic.prices ⟨1⟩ hbegun hid
  have hskip := hdense 0 _ _ (by rw [hhanded]; rfl) (by rw [hhanded]; rfl)
  simp at hskip

/-- The steps that claim no end stamp. -/
def publishes : ClusterAction → Bool
  | .reserve _ => false
  | _ => true

/-- Two publishes to one subscriber, in a run that claims no end stamp. -/
theorem handed_orders_dense_after_publishes :
    ∃ s, Reaches (step .total fun _ => .default) (fun s a => s.Unsaturated a ∧ s.Spares a) init s ∧
      ((s.nodes ⟨0⟩).cells ⟨1⟩).history.handed.length = 2 ∧ s.HandedDense ⟨0⟩ ⟨1⟩ := by
  have hrun : (runs (restrict (step .total fun _ => .default)
        fun s a => s.Unsaturated a ∧ publishes a = true) init
        (joining ⟨0⟩ Topic.prices ++ publishingOnce ⟨0⟩ Topic.prices ++
          publishingOnce ⟨0⟩ Topic.prices)).map (fun s =>
        ((s.nodes ⟨0⟩).quiesce.begun, (s.nodes ⟨0⟩).state.subscribers.lookup ⟨1⟩,
          ((s.nodes ⟨0⟩).cells ⟨1⟩).history.handed.length)) =
      some (false, some ⟨Topic.prices, ⟨1⟩⟩, 2) := by
    decide +kernel
  obtain ⟨s, hrun, hobs⟩ := Option.map_eq_some_iff.mp hrun
  simp only [Prod.mk.injEq] at hobs
  obtain ⟨hbegun, hid, hlen⟩ := hobs
  have hreach : Reaches (step .total fun _ => .default)
      (fun s a => s.Unsaturated a ∧ s.Spares a) init s := by
    refine (Reaches.of_runs _ .start hrun).mono ?_
    rintro s a ⟨hg, ha⟩
    refine ⟨hg, ?_⟩
    cases a with
    | reserve i => cases ha
    | _ => trivial
  exact ⟨s, hreach, hlen, (handed_orders_dense_of_spared .total fun _ => .default).1 s hreach
    ⟨0⟩ ⟨1⟩ Topic.prices ⟨1⟩ hbegun hid⟩

end Cluster
end Pubsub
end TightbeamExt
