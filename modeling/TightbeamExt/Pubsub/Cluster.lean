import Mathlib.Data.List.Chain
import TightbeamExt.Pubsub.Backplane
import TightbeamExt.Pubsub.Quiesce

/-!
# Several registry nodes on one local backplane

The nodes share the stamp counters of one `Local` backplane.  A publish takes the
backplane lock, claims the next stamp of its topic, goes through the attached
sinks with the lock held and burns the stamp if one accepted.  A quiescing node
claims its end stamps from the same counters, one call per topic.

Everything a node does on its own is a step of `Node`; the two things it does
through the backplane — deliver an update, claim a stamp — are steps of the
cluster that move one node.

## Main definitions

* `Publication` — a publish that holds the backplane lock.
* `Cluster.step b o` — one step of the system.
* `Cluster.ceiling s i t` — the highest stamp a lane of node `i` may have seen.
* `Unsaturated` — no stamp is claimed from a saturated counter.

## Main results

* `wf_step` — the nodes and the publish at work.
* `step_turn` — **what a step does to one node and to its ceiling**.
-/

namespace TightbeamExt
namespace Pubsub

open Transition

/-! ### The state -/

/-- One registry node of the cluster. -/
structure NodeId where
  /-- In the order of attachment. -/
  val : ℕ
  deriving DecidableEq, Repr

/-- Where a publish stands. -/
inductive Phase
  /-- Between two sinks. -/
  | visiting
  /-- Inside `deliver` of this sink, past the draining check. -/
  | delivering (i : NodeId)
  /-- At the end of `deliver`, dropping the connections the policy voted off. -/
  | disconnecting (i : NodeId)
  deriving DecidableEq, Repr

/-- A publish that holds the backplane lock. -/
structure Publication where
  /-- The topic. -/
  topic : Topic
  /-- The application octets. -/
  payload : Octets
  /-- The claimed stamp. -/
  order : ℕ
  /-- The sinks still to visit. -/
  todo : List NodeId
  /-- Where it stands. -/
  phase : Phase
  /-- What the sinks answered. -/
  tally : Tally

/-- The sink is behind the publish: refused, dead, or past its fan-out. -/
def Publication.visited (p : Publication) (i : NodeId) : Prop :=
  i ∉ p.todo ∧ p.phase ≠ .delivering i

/-- The nodes and their backplane. -/
structure Cluster where
  /-- Every node, attached or not. -/
  nodes : NodeId → Node
  /-- The registry was created and not dropped. -/
  live : NodeId → Bool
  /-- The next node. -/
  next : ℕ
  /-- The attached sinks. -/
  sinks : List NodeId
  /-- The stamp counters. -/
  orders : Table Topic ℕ
  /-- Publish calls past their fast-fail check. -/
  callers : List (Topic × Octets)
  /-- The publish that holds the backplane lock. -/
  publishing : Option Publication
  /-- What the publish calls returned so far. -/
  returned : List (Topic × Except PublishError Unit)

/-- The steps of the system. -/
inductive ClusterAction
  /-- `TopicRegistry::new` attaches a node. -/
  | attach
  /-- The last reference to a registry is gone. -/
  | dropNode (i : NodeId)
  /-- A node moves on its own. -/
  | node (i : NodeId) (a : NodeAction)
  /-- `TopicRegistry::publish` makes its draining check. -/
  | publishCall (i : NodeId) (t : Topic) (payload : Octets)
  /-- One of the callers takes the backplane lock and a stamp. -/
  | publishLock (k : ℕ)
  /-- It calls `deliver` of the next sink. -/
  | visit
  /-- That `deliver` fans out. -/
  | fanOut (policy : SubscriberId → DeliveryPolicy)
  /-- That `deliver` returns. -/
  | leave
  /-- The publish commits the stamp and returns. -/
  | settle
  /-- A quiescing node claims the end stamp of its next topic. -/
  | reserve (i : NodeId)

/-- The steps a node takes without the backplane. -/
def NodeAction.isOwn : NodeAction → Bool
  | .deliverCheck => false
  | .deliverBody _ _ _ _ => false
  | .quiesceReserve _ => false
  | _ => true

/-- What `deliver` returns past its draining check. -/
def delivery (b : FrameBuilder) (p : Publication) : Except DeliverError Unit :=
  match updateFrame b p.topic p.order p.payload with
  | .error cause => .error (.build cause)
  | .ok _ => .ok ()

/-- The topic a quiescing node stamps next. -/
def QuiescePc.stamping : QuiescePc → Option Topic
  | .reserving ((t, _) :: _) _ => some t
  | _ => none

namespace Cluster

/-- No node yet. -/
def init : Cluster := ⟨fun _ => Node.init, fun _ => false, 0, [], ∅, [], none, []⟩

/-- `Local::last_order`. -/
def lastOrder (s : Cluster) (t : Topic) : ℕ := (s.orders.lookup t).getD 0

/-- A publish is inside `deliver` of the node and keeps it alive. -/
def holds (s : Cluster) (i : NodeId) : Bool :=
  match s.publishing with
  | none => false
  | some p => decide (p.phase = .delivering i) || decide (p.phase = .disconnecting i)

/-- One node changes. -/
def setNode (s : Cluster) (i : NodeId) (n : Node) : Cluster :=
  { s with nodes := Function.update s.nodes i n }

/-! ### The steps -/

/-- `Local::publish` takes the lock. -/
def publishLock (k : ℕ) (s : Cluster) : Option Cluster :=
  match s.publishing, s.callers[k]? with
  | none, some (t, payload) =>
      some { s with
        callers := s.callers.eraseIdx k
        publishing :=
          some ⟨t, payload, saturatingSucc (s.lastOrder t), s.sinks, .visiting, .empty⟩ }
  | _, _ => none

/-- The closure of `retain` up to the draining check of `deliver`: a dead sink is
forgotten, a draining one refuses. -/
def visit (b : FrameBuilder) (o : NodeId → RegistryOptions) (s : Cluster) : Option Cluster :=
  match s.publishing with
  | some ⟨t, payload, order, i :: todo, .visiting, tally⟩ =>
      if !s.live i then
        some { s with
          sinks := s.sinks.erase i
          publishing := some ⟨t, payload, order, todo, .visiting, tally⟩ }
      else if !(s.nodes i).unlocked then none
      else if (s.nodes i).draining then
        some { s with
          publishing := some ⟨t, payload, order, todo, .visiting, tally.record (.error .draining)⟩ }
      else
        ((s.nodes i).step b (o i) .deliverCheck).map fun n =>
          { s.setNode i n with
            publishing := some ⟨t, payload, order, todo, .delivering i, tally⟩ }
  | _ => none

/-- `deliver` past its draining check, up to the end of its section. -/
def fanOut (b : FrameBuilder) (o : NodeId → RegistryOptions)
    (policy : SubscriberId → DeliveryPolicy) (s : Cluster) : Option Cluster :=
  match s.publishing with
  | some ⟨t, payload, order, todo, .delivering i, tally⟩ =>
      let p : Publication := ⟨t, payload, order, todo, .delivering i, tally⟩
      ((s.nodes i).step b (o i) (.deliverBody t order payload policy)).map fun n =>
        { s.setNode i n with
          publishing := some { p with
            phase := .disconnecting i
            tally := tally.record (delivery b p) } }
  | _ => none

/-- `deliver` returns once every connection the policy voted off is dropped. -/
def leave (s : Cluster) : Option Cluster :=
  match s.publishing with
  | some ⟨t, payload, order, todo, .disconnecting i, tally⟩ =>
      if (s.nodes i).doomed = [] then
        some { s with publishing := some ⟨t, payload, order, todo, .visiting, tally⟩ }
      else none
  | _ => none

/-- `Local::publish` behind its loop. -/
def settle (s : Cluster) : Option Cluster :=
  match s.publishing with
  | some ⟨t, _, order, [], .visiting, tally⟩ =>
      some { s with
        orders := if tally.commits then s.orders.insert t order else s.orders
        publishing := none
        returned := s.returned ++ [(t, tally.answer.mapError PublishError.ofBackplane)] }
  | _ => none

/-- `Local::reserve_order`, called by a quiescing node, and the end frame built
from its stamp. -/
def reserve (b : FrameBuilder) (o : NodeId → RegistryOptions) (i : NodeId) (s : Cluster) :
    Option Cluster :=
  match s.publishing, s.live i, (s.nodes i).quiesce.stamping with
  | none, true, some t =>
      let order := saturatingSucc (s.lastOrder t)
      ((s.nodes i).step b (o i) (.quiesceReserve order)).map fun n =>
        { s.setNode i n with orders := s.orders.insert t order }
  | _, _, _ => none

/-- One step of the system. -/
def step (b : FrameBuilder) (o : NodeId → RegistryOptions) (s : Cluster) :
    ClusterAction → Option Cluster
  | .attach =>
      match s.publishing with
      | none =>
          some { s with
            nodes := Function.update s.nodes ⟨s.next⟩ Node.init
            live := Function.update s.live ⟨s.next⟩ true
            next := s.next + 1
            sinks := s.sinks.filter s.live ++ [⟨s.next⟩] }
      | some _ => none
  | .dropNode i =>
      if s.holds i then none else some { s with live := Function.update s.live i false }
  | .node i a =>
      if s.live i && a.isOwn then ((s.nodes i).step b (o i) a).map (s.setNode i) else none
  | .publishCall i t payload =>
      if !s.live i then none
      else if (s.nodes i).draining then
        some { s with returned := s.returned ++ [(t, .error .draining)] }
      else some { s with callers := s.callers ++ [(t, payload)] }
  | .publishLock k => s.publishLock k
  | .visit => s.visit b o
  | .fanOut policy => s.fanOut b o policy
  | .leave => s.leave
  | .settle => s.settle
  | .reserve i => s.reserve b o i

/-- The topic a step claims a stamp of. -/
def stamped (s : Cluster) : ClusterAction → Option Topic
  | .publishLock k => s.callers[k]?.map Prod.fst
  | .reserve i => (s.nodes i).quiesce.stamping
  | _ => none

/-- The step claims no stamp from a saturated counter. -/
def Unsaturated (s : Cluster) (a : ClusterAction) : Prop :=
  ∀ t ∈ s.stamped a, s.lastOrder t < u64Max

instance (s : Cluster) (a : ClusterAction) : Decidable (s.Unsaturated a) :=
  inferInstanceAs (Decidable (∀ t ∈ s.stamped a, _))

/-! ### The nodes and the publish at work -/

instance (p : Publication) (i : NodeId) : Decidable (p.visited i) :=
  inferInstanceAs (Decidable (_ ∧ _))

/-- What holds of the publish at work. -/
structure Publishing (b : FrameBuilder) (s : Cluster) (p : Publication) : Prop where
  /-- The stamp is the next one. -/
  order : p.order = s.lastOrder p.topic + 1
  /-- No sink is visited twice. -/
  todo : p.todo.Nodup
  /-- The sink at work is off the list. -/
  current : ∀ i, p.phase = .delivering i → i ∉ p.todo
  /-- And alive. -/
  kept : ∀ i, p.phase = .delivering i → s.live i = true
  /-- A sink accepts only a frame that builds. -/
  accepted : p.tally.deliveredAny = true → (delivery b p).isOk = true
  /-- Every live sink behind the publish has answered. -/
  heard : ∀ i, s.live i = true → p.visited i → (p.tally.deliveredAny || p.tally.refused) = true
  /-- One that is not draining has accepted a frame that builds. -/
  fanned : ∀ i, s.live i = true → (s.nodes i).draining = false → p.visited i →
    (delivery b p).isOk = true → p.tally.deliveredAny = true

/-- What holds of the cluster between any two steps. -/
structure WF (b : FrameBuilder) (o : NodeId → RegistryOptions) (s : Cluster) : Prop where
  /-- The nodes keep their invariants. -/
  nodes : ∀ i, Node.Inv (o i) (s.nodes i) ∧ Node.QuiesceInv b (s.nodes i)
  /-- No sink is attached twice. -/
  sinks : s.sinks.Nodup
  /-- Only created nodes are attached. -/
  known : ∀ i ∈ s.sinks, i.val < s.next
  /-- Every live node is attached. -/
  attached : ∀ i, s.live i = true → i ∈ s.sinks
  /-- The publish at work. -/
  publishing : ∀ p, s.publishing = some p → Publishing b s p

theorem wf_init (b : FrameBuilder) (o : NodeId → RegistryOptions) : WF b o init where
  nodes := fun _ => ⟨Node.inv_init _, Node.qinv_init b⟩
  sinks := List.nodup_nil
  known := by intro i hi; simp [init] at hi
  attached := by intro i hi; simp [init] at hi
  publishing := by intro p hp; simp [init] at hp

variable {b : FrameBuilder} {o : NodeId → RegistryOptions} {s s' : Cluster}

@[simp] theorem nodes_setNode_self (i : NodeId) (n : Node) : (s.setNode i n).nodes i = n :=
  Function.update_self _ _ _

theorem nodes_setNode_of_ne {i j : NodeId} (h : j ≠ i) (n : Node) :
    (s.setNode i n).nodes j = s.nodes j :=
  Function.update_of_ne h _ _

/-- The flag is never taken back. -/
theorem draining_mono {n n' : Node} {a : NodeAction} {r : RegistryOptions} (hi : Node.Inv r n)
    (hst : n.step b r a = some n') (hd : n'.draining = false) : n.draining = false := by
  cases Node.step_effect hi hst with
  | calm _ hc => rw [← hc.draining]; exact hd
  | refuse _ hc => rw [← hc.draining]; exact hd
  | register _ hu => rw [← hu.draining]; exact hd
  | deliver _ hu => rw [← hu.draining]; exact hd
  | swap hn => rw [hn] at hd; cases hd
  | snapshot _ _ hn => rw [hn] at hd; exact hd
  | reserve _ _ hn => rw [hn] at hd; exact hd
  | fail _ hn => rw [hn] at hd; exact hd
  | finish _ _ hn => rw [hn] at hd; exact hd

theorem WF.setNode_inv (h : WF b o s) {i : NodeId} {a : NodeAction} {n : Node}
    (hst : (s.nodes i).step b (o i) a = some n) (j : NodeId) :
    Node.Inv (o j) ((s.setNode i n).nodes j) ∧ Node.QuiesceInv b ((s.setNode i n).nodes j) := by
  by_cases hj : j = i
  · subst hj
    rw [nodes_setNode_self]
    exact ⟨Node.inv_step (h.nodes j).1 hst, Node.qinv_step (h.nodes j).1 (h.nodes j).2 hst⟩
  · rw [nodes_setNode_of_ne hj]
    exact h.nodes j

theorem WF.setNode_draining (h : WF b o s) {i : NodeId} {a : NodeAction} {n : Node}
    (hst : (s.nodes i).step b (o i) a = some n) {j : NodeId}
    (hd : ((s.setNode i n).nodes j).draining = false) : (s.nodes j).draining = false := by
  by_cases hj : j = i
  · subst hj
    rw [nodes_setNode_self] at hd
    exact draining_mono (h.nodes j).1 hst hd
  · rwa [nodes_setNode_of_ne hj] at hd

/-- Fewer live nodes, more draining ones: the publish at work is as it was. -/
theorem Publishing.weaken {p : Publication} (h : Publishing b s p)
    (horders : s'.orders = s.orders) (hlive : ∀ i, s'.live i = true → s.live i = true)
    (hkept : ∀ i, p.phase = .delivering i → s.live i = true → s'.live i = true)
    (hdrain : ∀ i, (s'.nodes i).draining = false → (s.nodes i).draining = false) :
    Publishing b s' p where
  order := by simpa only [lastOrder, horders] using h.order
  todo := h.todo
  current := h.current
  kept := fun i hi => hkept i hi (h.kept i hi)
  accepted := h.accepted
  heard := fun i hi hv => h.heard i (hlive i hi) hv
  fanned := fun i hi hd hv hok => h.fanned i (hlive i hi) (hdrain i hd) hv hok

/-- Who is on the list of sinks. -/
structure Attached (s : Cluster) : Prop where
  /-- No sink is attached twice. -/
  nodup : s.sinks.Nodup
  /-- Only created nodes are attached. -/
  known : ∀ i ∈ s.sinks, i.val < s.next
  /-- Every live node is attached. -/
  live : ∀ i, s.live i = true → i ∈ s.sinks

theorem WF.toAttached (h : WF b o s) : Attached s := ⟨h.sinks, h.known, h.attached⟩

theorem Attached.attach (h : Attached s) :
    Attached { s with
      nodes := Function.update s.nodes ⟨s.next⟩ Node.init
      live := Function.update s.live ⟨s.next⟩ true
      next := s.next + 1
      sinks := s.sinks.filter s.live ++ [⟨s.next⟩] } where
  nodup := by
    rw [List.nodup_append]
    refine ⟨h.nodup.filter _, List.nodup_singleton _, ?_⟩
    intro i hi j hj
    rw [List.mem_singleton] at hj
    rintro rfl
    have := h.known i (List.mem_filter.mp hi).1
    rw [hj] at this
    exact lt_irrefl _ this
  known := by
    intro i hi
    simp only [List.mem_append, List.mem_singleton] at hi
    rcases hi with hi | rfl
    · exact Nat.lt_succ_of_lt (h.known i (List.mem_filter.mp hi).1)
    · exact Nat.lt_succ_self _
  live := by
    intro i hi
    by_cases hnew : i = ⟨s.next⟩
    · simp [hnew]
    · simp only [Function.update_of_ne hnew] at hi
      exact List.mem_append_left _ (List.mem_filter.mpr ⟨h.live i hi, hi⟩)

/-- A dead sink is taken off the list. -/
theorem Attached.erase (h : Attached s) {i : NodeId} (hdead : s.live i = false)
    (p : Option Publication) :
    Attached { s with sinks := s.sinks.erase i, publishing := p } where
  nodup := h.nodup.erase i
  known := fun j hj => h.known j (List.mem_of_mem_erase hj)
  live := by
    intro j hj
    refine (List.mem_erase_of_ne ?_).mpr (h.live j hj)
    rintro rfl
    exact absurd hj (by simp [hdead])

theorem wf_attach (h : WF b o s) (hpub : s.publishing = none) :
    WF b o { s with
      nodes := Function.update s.nodes ⟨s.next⟩ Node.init
      live := Function.update s.live ⟨s.next⟩ true
      next := s.next + 1
      sinks := s.sinks.filter s.live ++ [⟨s.next⟩] } where
  nodes := by
    intro i
    by_cases hi : i = ⟨s.next⟩
    · subst hi
      simp only [Function.update_self]
      exact ⟨Node.inv_init _, Node.qinv_init b⟩
    · simp only [Function.update_of_ne hi]
      exact h.nodes i
  sinks := h.toAttached.attach.nodup
  known := h.toAttached.attach.known
  attached := h.toAttached.attach.live
  publishing := by
    intro p hp
    simp only [hpub] at hp
    cases hp

theorem wf_dropNode (h : WF b o s) {i : NodeId} (hfree : s.holds i = false) :
    WF b o { s with live := Function.update s.live i false } := by
  have hlive : ∀ j, Function.update s.live i false j = true → s.live j = true := by
    intro j hj
    by_cases hji : j = i
    · simp [hji] at hj
    · simpa [hji] using hj
  have hkept : ∀ p, s.publishing = some p → ∀ j, p.phase = .delivering j → s.live j = true →
      Function.update s.live i false j = true := by
    intro p hp j hj hl
    have hne : j ≠ i := by
      rintro rfl
      simp [holds, hp, hj] at hfree
    rw [Function.update_of_ne hne]
    exact hl
  exact ⟨h.nodes, h.sinks, h.known, fun j hj => h.attached j (hlive j hj),
    fun p hp => (h.publishing p hp).weaken rfl hlive (hkept p hp) fun _ hd => hd⟩

theorem wf_node (h : WF b o s) {i : NodeId} {a : NodeAction} {n : Node}
    (hst : (s.nodes i).step b (o i) a = some n) : WF b o (s.setNode i n) :=
  ⟨h.setNode_inv hst, h.sinks, h.known, h.attached,
    fun p hp => (h.publishing p hp).weaken rfl (fun _ hl => hl) (fun _ _ hl => hl)
      fun _ hd => h.setNode_draining hst hd⟩

theorem wf_publishLock (h : WF b o s) {k : ℕ} (hg : s.Unsaturated (.publishLock k))
    (hst : s.publishLock k = some s') : WF b o s' := by
  unfold publishLock at hst
  split at hst
  · next t payload hpub hk =>
    cases hst
    have hlt : s.lastOrder t < u64Max := hg t (by simp [stamped, hk])
    refine ⟨h.nodes, h.sinks, h.known, h.attached, ?_⟩
    intro p hp
    cases hp
    exact {
      order := saturatingSucc_of_lt hlt
      todo := h.sinks
      current := by intro i hi; cases hi
      kept := by intro i hi; cases hi
      accepted := by intro hd; cases hd
      -- every live sink is on the list, so none is behind the publish yet
      heard := fun i hi hv => absurd (h.attached i hi) hv.1
      fanned := fun i hi _ hv => absurd (h.attached i hi) hv.1 }
  · cases hst

/-- What the publish at work meets at its next sink: a dead one, a draining one, or
one it goes into. -/
theorem visit_cases (hst : s.visit b o = some s') :
    ∃ p i todo, s.publishing = some p ∧ p.todo = i :: todo ∧ p.phase = .visiting ∧
      ((s.live i = false ∧
          s' = { s with sinks := s.sinks.erase i, publishing := some { p with todo := todo } }) ∨
        ((s.nodes i).draining = true ∧
          s' = { s with
            publishing :=
              some { p with todo := todo, tally := p.tally.record (.error .draining) } }) ∨
        ∃ n, s.live i = true ∧ (s.nodes i).step b (o i) .deliverCheck = some n ∧
          s' = { s.setNode i n with
            publishing := some { p with todo := todo, phase := .delivering i } }) := by
  unfold visit at hst
  split at hst
  · next t payload order i todo tally hpub =>
    refine ⟨_, i, todo, hpub, rfl, rfl, ?_⟩
    split at hst
    · next hdead => cases hst; exact .inl ⟨by simpa using hdead, rfl⟩
    · next halive =>
      split at hst
      · cases hst
      · split at hst
        · next hdrain => cases hst; exact .inr (.inl ⟨hdrain, rfl⟩)
        · rw [Option.map_eq_some_iff] at hst
          obtain ⟨n, hn, rfl⟩ := hst
          exact .inr (.inr ⟨n, by simpa using halive, hn, rfl⟩)
  · cases hst

/-- With a sink off the list, only that sink was not behind the publish before. -/
theorem Publication.visited_of_next {p p' : Publication} {i j : NodeId}
    (htodo : p.todo = i :: p'.todo) (hphase : p.phase = .visiting) (hj : j ≠ i)
    (hv : p'.visited j) : p.visited j := by
  refine ⟨?_, by rw [hphase]; exact fun hph => by cases hph⟩
  rw [htodo, List.mem_cons, not_or]
  exact ⟨hj, hv.1⟩

/-- What is behind the publish stays behind it. -/
theorem Publication.visited_next {p p' : Publication} {i j : NodeId}
    (htodo : p.todo = i :: p'.todo) (hphase : p'.phase = .visiting) (hv : p.visited j) :
    p'.visited j := by
  refine ⟨?_, by rw [hphase]; exact fun hph => by cases hph⟩
  intro hj
  refine hv.1 ?_
  rw [htodo]
  exact List.mem_cons_of_mem i hj

/-- The next sink is dead and forgotten. -/
theorem Publishing.skip {p : Publication} {i : NodeId} {todo sinks : List NodeId}
    (h : Publishing b s p) (htodo : p.todo = i :: todo) (hphase : p.phase = .visiting)
    (hdead : s.live i = false) :
    Publishing b { s with sinks := sinks, publishing := some { p with todo := todo } }
      { p with todo := todo } where
  order := h.order
  todo := (List.nodup_cons.mp (htodo ▸ h.todo)).2
  current := by intro j hj; rw [hphase] at hj; cases hj
  kept := by intro j hj; rw [hphase] at hj; cases hj
  accepted := h.accepted
  heard := by
    intro j hj hv
    have hne : j ≠ i := by rintro rfl; exact absurd hj (by simp [hdead])
    exact h.heard j hj (Publication.visited_of_next htodo hphase hne hv)
  fanned := by
    intro j hj hd hv
    have hne : j ≠ i := by rintro rfl; exact absurd hj (by simp [hdead])
    exact h.fanned j hj hd (Publication.visited_of_next htodo hphase hne hv)

/-- The next sink is draining and refuses. -/
theorem Publishing.refuse {p : Publication} {i : NodeId} {todo : List NodeId}
    (h : Publishing b s p) (htodo : p.todo = i :: todo) (hphase : p.phase = .visiting)
    (hdrain : (s.nodes i).draining = true) :
    Publishing b
      { s with publishing := some { p with todo := todo, tally := p.tally.record (.error .draining) } }
      { p with todo := todo, tally := p.tally.record (.error .draining) } where
  order := h.order
  todo := (List.nodup_cons.mp (htodo ▸ h.todo)).2
  current := by intro j hj; rw [hphase] at hj; cases hj
  kept := by intro j hj; rw [hphase] at hj; cases hj
  accepted := by
    intro hd
    rw [Tally.deliveredAny_record] at hd
    exact h.accepted (by simpa [Except.isOk, Except.toBool] using hd)
  heard := fun j _ _ => Tally.heard_record _ _
  fanned := by
    intro j hj hd hv hok
    have hne : j ≠ i := by rintro rfl; exact absurd hd (by simp [hdrain])
    have hdelivered := h.fanned j hj hd (Publication.visited_of_next htodo hphase hne hv) hok
    rw [Tally.deliveredAny_record, hdelivered]
    rfl

/-- The publish goes into the next sink. -/
theorem Publishing.enter {p : Publication} {i : NodeId} {todo : List NodeId} {n : Node}
    (h : Publishing b s p) (htodo : p.todo = i :: todo) (hphase : p.phase = .visiting)
    (hlive : s.live i = true)
    (hdrain : ∀ j, ((s.setNode i n).nodes j).draining = false → (s.nodes j).draining = false) :
    Publishing b
      { s.setNode i n with publishing := some { p with todo := todo, phase := .delivering i } }
      { p with todo := todo, phase := .delivering i } where
  order := h.order
  todo := (List.nodup_cons.mp (htodo ▸ h.todo)).2
  current := by
    intro j hj
    cases hj
    exact (List.nodup_cons.mp (htodo ▸ h.todo)).1
  kept := by
    intro j hj
    cases hj
    exact hlive
  accepted := h.accepted
  heard := by
    intro j hj hv
    have hne : j ≠ i := by rintro rfl; exact hv.2 rfl
    exact h.heard j hj (Publication.visited_of_next htodo hphase hne hv)
  fanned := by
    intro j hj hd hv
    have hne : j ≠ i := by rintro rfl; exact hv.2 rfl
    exact h.fanned j hj (hdrain j hd) (Publication.visited_of_next htodo hphase hne hv)

theorem wf_visit (h : WF b o s) (hst : s.visit b o = some s') : WF b o s' := by
  obtain ⟨p, i, todo, hpub, htodo, hphase, hcase⟩ := visit_cases hst
  have hp := h.publishing p hpub
  rcases hcase with ⟨hdead, rfl⟩ | ⟨hdrain, rfl⟩ | ⟨n, hlive, hn, rfl⟩
  · have hat := h.toAttached.erase hdead (some { p with todo := todo })
    refine ⟨h.nodes, hat.nodup, hat.known, hat.live, ?_⟩
    intro p' hp'
    cases hp'
    exact hp.skip htodo hphase hdead
  · refine ⟨h.nodes, h.sinks, h.known, h.attached, ?_⟩
    intro p' hp'
    cases hp'
    exact hp.refuse htodo hphase hdrain
  · refine ⟨h.setNode_inv hn, h.sinks, h.known, h.attached, ?_⟩
    intro p' hp'
    cases hp'
    exact hp.enter htodo hphase hlive fun j hd => h.setNode_draining hn hd

theorem wf_fanOut (h : WF b o s) {policy : SubscriberId → DeliveryPolicy}
    (hst : s.fanOut b o policy = some s') : WF b o s' := by
  unfold fanOut at hst
  split at hst
  · next t payload order todo i tally hpub =>
    have hp := h.publishing _ hpub
    rw [Option.map_eq_some_iff] at hst
    obtain ⟨n, hn, rfl⟩ := hst
    refine ⟨h.setNode_inv hn, h.sinks, h.known, h.attached, ?_⟩
    intro p hpe
    cases hpe
    exact {
      order := hp.order
      todo := hp.todo
      current := by intro j hj; cases hj
      kept := by intro j hj; cases hj
      accepted := by
        intro hd
        rw [Tally.deliveredAny_record, Bool.or_eq_true] at hd
        rcases hd with hd | hd
        · exact hp.accepted hd
        · exact hd
      heard := fun j _ _ => Tally.heard_record _ _
      fanned := by
        intro j _ _ _ hok
        rw [Tally.deliveredAny_record, Bool.or_eq_true]
        exact .inr hok }
  · cases hst

theorem wf_leave (h : WF b o s) (hst : s.leave = some s') : WF b o s' := by
  unfold leave at hst
  split at hst
  · next t payload order todo i tally hpub =>
    split at hst
    · cases hst
      have hp := h.publishing _ hpub
      refine ⟨h.nodes, h.sinks, h.known, h.attached, ?_⟩
      intro p hpe
      cases hpe
      exact ⟨hp.order, hp.todo, fun j hj => (by cases hj), fun j hj => (by cases hj), hp.accepted,
        fun j hj hv => hp.heard j hj ⟨hv.1, fun hph => by cases hph⟩,
        fun j hj hd hv => hp.fanned j hj hd ⟨hv.1, fun hph => by cases hph⟩⟩
    · cases hst
  · cases hst

theorem wf_settle (h : WF b o s) (hst : s.settle = some s') : WF b o s' := by
  unfold settle at hst
  split at hst
  · cases hst
    exact ⟨h.nodes, h.sinks, h.known, h.attached, fun p hp => by cases hp⟩
  · cases hst

theorem wf_reserve (h : WF b o s) {i : NodeId} (hst : s.reserve b o i = some s') : WF b o s' := by
  unfold reserve at hst
  split at hst
  · next t hpub hlive hq =>
    rw [Option.map_eq_some_iff] at hst
    obtain ⟨n, hn, rfl⟩ := hst
    refine ⟨h.setNode_inv hn, h.sinks, h.known, h.attached, ?_⟩
    intro p hp
    have hnone : s.publishing = some p := hp
    rw [hpub] at hnone
    cases hnone
  · cases hst

/-- **The step lemma.** -/
theorem wf_step {a : ClusterAction} (h : WF b o s) (hg : s.Unsaturated a)
    (hst : s.step b o a = some s') : WF b o s' := by
  cases a with
  | attach =>
    simp only [step] at hst
    split at hst
    · next hpub => cases hst; exact wf_attach h hpub
    · cases hst
  | dropNode i =>
    simp only [step] at hst
    split at hst
    · cases hst
    · next hfree => cases hst; exact wf_dropNode h (by simpa using hfree)
  | node i a =>
    simp only [step] at hst
    split at hst
    · rw [Option.map_eq_some_iff] at hst
      obtain ⟨n, hn, rfl⟩ := hst
      exact wf_node h hn
    · cases hst
  | publishCall i t payload =>
    have hsame : ∀ {callers returned}, WF b o { s with callers := callers, returned := returned } :=
      ⟨h.nodes, h.sinks, h.known, h.attached,
        fun p hp => (h.publishing p hp).weaken rfl (fun _ hl => hl) (fun _ _ hl => hl)
          fun _ hd => hd⟩
    simp only [step] at hst
    split at hst
    · cases hst
    · split at hst
      · cases hst; exact hsame
      · cases hst; exact hsame
  | publishLock k => exact wf_publishLock h hg hst
  | visit => exact wf_visit h hst
  | fanOut policy => exact wf_fanOut h hst
  | leave => exact wf_leave h hst
  | settle => exact wf_settle h hst
  | reserve i => exact wf_reserve h hst

/-! ### The ceiling of a node -/

/-- The highest stamp of `t` a lane of node `i` may have seen: the committed one,
or the one at work once a sink accepted it and `i` is behind the publish. -/
def ceiling (s : Cluster) (i : NodeId) (t : Topic) : ℕ :=
  match s.publishing with
  | none => s.lastOrder t
  | some p =>
      if p.topic = t ∧ p.tally.deliveredAny = true ∧ p.visited i then p.order else s.lastOrder t

theorem ceiling_of_idle (h : s.publishing = none) (i : NodeId) (t : Topic) :
    s.ceiling i t = s.lastOrder t := by
  simp [ceiling, h]

theorem ceiling_of_publishing {p : Publication} (h : s.publishing = some p) (i : NodeId)
    (t : Topic) :
    s.ceiling i t =
      if p.topic = t ∧ p.tally.deliveredAny = true ∧ p.visited i then p.order
      else s.lastOrder t := by
  simp [ceiling, h]

theorem lastOrder_insert (s : Cluster) (t t' : Topic) (order : ℕ) :
    ((s.orders.insert t order).lookup t').getD 0 = if t' = t then order else s.lastOrder t' := by
  rw [Table.lookup_insert_eq]
  split <;> rfl

/-- What a step does to node `j` and to its ceiling. -/
inductive Turn (b : FrameBuilder) (o : NodeId → RegistryOptions) (s s' : Cluster) (j : NodeId) :
    ClusterAction → Prop
  /-- The node is created. -/
  | created {a : ClusterAction} : s'.nodes j = Node.init → Turn b o s s' j a
  /-- It moves without the backplane. -/
  | moved {a : ClusterAction} {x : NodeAction} : (s.nodes j).step b (o j) x = some (s'.nodes j) →
      x.stamps = false → s'.live j = s.live j → s'.ceiling j = s.ceiling j → Turn b o s s' j a
  /-- It fans out the update of the publish at work. -/
  | delivered {policy : SubscriberId → DeliveryPolicy} {p : Publication} :
      (s.nodes j).step b (o j) (.deliverBody p.topic p.order p.payload policy) =
        some (s'.nodes j) →
      s.live j = true → p.order = s.ceiling j p.topic + 1 →
      (∀ t, s'.ceiling j t =
        if t = p.topic ∧ (delivery b p).isOk = true then p.order else s.ceiling j t) →
      Turn b o s s' j (.fanOut policy)
  /-- It claims an end stamp. -/
  | reserved {t : Topic} {order : ℕ} :
      (s.nodes j).step b (o j) (.quiesceReserve order) = some (s'.nodes j) →
      (s.nodes j).quiesce.stamping = some t → order = s.ceiling j t + 1 →
      (∀ t', s'.ceiling j t' = if t' = t then order else s.ceiling j t') →
      Turn b o s s' j (.reserve j)
  /-- Another node claims an end stamp. -/
  | passed {i : NodeId} {t : Topic} : s'.nodes j = s.nodes j → s'.live j = s.live j →
      (s.nodes i).quiesce.stamping = some t →
      (∀ t', s'.ceiling j t' = if t' = t then s.ceiling j t + 1 else s.ceiling j t') →
      Turn b o s s' j (.reserve i)
  /-- It does not move; its ceiling moves only if it is gone or draining. -/
  | rested {a : ClusterAction} : s'.nodes j = s.nodes j →
      (s'.live j = true → s.live j = true) → (∀ t, s.ceiling j t ≤ s'.ceiling j t) →
      (s'.live j = true → (s'.nodes j).draining = false → s'.ceiling j = s.ceiling j) →
      Turn b o s s' j a

/-- A step that leaves node and ceiling alone. -/
theorem Turn.same {j : NodeId} {a : ClusterAction} (hn : s'.nodes j = s.nodes j)
    (hl : s'.live j = true → s.live j = true) (hc : s'.ceiling j = s.ceiling j) :
    Turn b o s s' j a :=
  .rested hn hl (fun t => by rw [hc]) fun _ _ => hc

/-- The publish at work goes on; what is behind it stays behind it. -/
theorem turn_of_publishing (h : WF b o s) {j : NodeId} {p p' : Publication} {a : ClusterAction}
    (hp : s.publishing = some p) (hp' : s'.publishing = some p') (hn : s'.nodes j = s.nodes j)
    (hl : s'.live = s.live) (horders : s'.orders = s.orders) (htopic : p'.topic = p.topic)
    (horder : p'.order = p.order)
    (hdel : p.tally.deliveredAny = true → p'.tally.deliveredAny = true)
    (hvis : p.visited j → p'.visited j)
    (hback : s'.live j = true → (s'.nodes j).draining = false →
      p'.tally.deliveredAny = true → p'.visited j →
      p.tally.deliveredAny = true ∧ p.visited j) : Turn b o s s' j a := by
  have hlast : ∀ t, s'.lastOrder t = s.lastOrder t := fun t => by simp only [lastOrder, horders]
  refine .rested hn (fun hlive => by rw [← hl]; exact hlive) ?_ ?_
  · intro t
    rw [ceiling_of_publishing hp, ceiling_of_publishing hp', htopic, horder, hlast]
    split
    · next hin => rw [if_pos ⟨hin.1, hdel hin.2.1, hvis hin.2.2⟩]
    · split
      · next hin =>
        have := (h.publishing p hp).order
        rw [hin.1] at this
        omega
      · exact le_rfl
  · intro hlive hdrain
    funext t
    rw [ceiling_of_publishing hp, ceiling_of_publishing hp', htopic, horder, hlast]
    congr 1
    refine propext ⟨?_, ?_⟩
    · rintro ⟨ht, hd, hv⟩
      exact ⟨ht, hback hlive hdrain hd hv⟩
    · rintro ⟨ht, hd, hv⟩
      exact ⟨ht, hdel hd, hvis hv⟩

theorem turn_visit (h : WF b o s) (hst : s.visit b o = some s') (j : NodeId) :
    Turn b o s s' j .visit := by
  obtain ⟨p, i, todo, hpub, htodo, hphase, hcase⟩ := visit_cases hst
  rcases hcase with ⟨hdead, rfl⟩ | ⟨hdrain, rfl⟩ | ⟨n, -, hn, rfl⟩
  · refine turn_of_publishing h hpub rfl rfl rfl rfl rfl rfl id ?_ ?_
    · exact Publication.visited_next htodo hphase
    · intro hlive _ hd hv
      have hne : j ≠ i := by rintro rfl; exact absurd hlive (by simp [hdead])
      exact ⟨hd, Publication.visited_of_next htodo hphase hne hv⟩
  · have hsame : (p.tally.record (.error .draining)).deliveredAny = p.tally.deliveredAny := by
      simp [Tally.deliveredAny_record, Except.isOk, Except.toBool]
    refine turn_of_publishing h hpub rfl rfl rfl rfl rfl rfl ?_ ?_ ?_
    · exact fun hd => hsame.trans hd
    · exact Publication.visited_next htodo hphase
    · intro _ hd hdel hv
      have hne : j ≠ i := by rintro rfl; exact absurd hd (by simp [hdrain])
      exact ⟨hsame.symm.trans hdel, Publication.visited_of_next htodo hphase hne hv⟩
  · -- neither before nor after is the sink at work behind the publish
    have hvis : ∀ k : NodeId,
        ({ p with todo := todo, phase := .delivering i } : Publication).visited k ↔ p.visited k := by
      intro k
      constructor
      · intro hv
        have hne : k ≠ i := by rintro rfl; exact hv.2 rfl
        exact Publication.visited_of_next htodo hphase hne hv
      · intro hv
        have hnot : k ∉ i :: todo := htodo ▸ hv.1
        rw [List.mem_cons, not_or] at hnot
        refine ⟨hnot.2, ?_⟩
        rintro hph
        cases hph
        exact hnot.1 rfl
    have hceil : ∀ k, Cluster.ceiling
        { s.setNode i n with
          publishing := some { p with todo := todo, phase := .delivering i } } k = s.ceiling k := by
      intro k
      funext t
      rw [ceiling_of_publishing hpub, ceiling_of_publishing rfl]
      simp only [hvis k]
      rfl
    by_cases hj : j = i
    · subst hj
      refine .moved (x := .deliverCheck) ?_ rfl rfl (hceil j)
      simpa using hn
    · exact Turn.same (nodes_setNode_of_ne hj n) id (hceil j)

theorem turn_fanOut (h : WF b o s) {policy : SubscriberId → DeliveryPolicy}
    (hst : s.fanOut b o policy = some s') (j : NodeId) : Turn b o s s' j (.fanOut policy) := by
  unfold fanOut at hst
  split at hst
  · next t payload order todo i tally hpub =>
    have hp := h.publishing _ hpub
    rw [Option.map_eq_some_iff] at hst
    obtain ⟨n, hn, rfl⟩ := hst
    by_cases hj : j = i
    · subst hj
      have hbefore : ∀ t', s.ceiling j t' = s.lastOrder t' := by
        intro t'
        rw [ceiling_of_publishing hpub, if_neg]
        exact fun hin => hin.2.2.2 rfl
      refine .delivered (p := ⟨t, payload, order, todo, .delivering j, tally⟩) ?_
        (hp.kept j rfl) ?_ ?_
      · simpa using hn
      · rw [hbefore]
        exact hp.order
      · intro t'
        rw [ceiling_of_publishing rfl, hbefore]
        have hvis : (Publication.mk t payload order todo (.disconnecting j)
            (tally.record (delivery b ⟨t, payload, order, todo, .delivering j, tally⟩))).visited j :=
          ⟨hp.current j rfl, fun hph => by cases hph⟩
        simp only [hvis, and_true, Tally.deliveredAny_record, Bool.or_eq_true, eq_comm (a := t)]
        refine if_congr (and_congr_right fun _ => ⟨?_, .inr⟩) rfl rfl
        rintro (hd | hok)
        · exact hp.accepted hd
        · exact hok
    · refine turn_of_publishing h hpub rfl (nodes_setNode_of_ne hj n) rfl rfl rfl rfl ?_ ?_ ?_
      · intro hd
        simp only [Tally.deliveredAny_record, Bool.or_eq_true]
        exact .inl hd
      · exact fun hv => ⟨hv.1, fun hph => by cases hph⟩
      · intro hlive hdrain hd hv
        have hvis : (Publication.mk t payload order todo (.delivering i) tally).visited j :=
          ⟨hv.1, fun hph => by cases hph; exact hj rfl⟩
        refine ⟨?_, hvis⟩
        simp only [Tally.deliveredAny_record, Bool.or_eq_true] at hd
        rcases hd with hd | hok
        · exact hd
        · have hdrain' : (s.nodes j).draining = false := by
            rw [← nodes_setNode_of_ne hj n]
            exact hdrain
          exact hp.fanned j hlive hdrain' hvis hok
  · cases hst

theorem turn_settle (h : WF b o s) (hst : s.settle = some s') (j : NodeId) :
    Turn b o s s' j .settle := by
  unfold settle at hst
  split at hst
  · next t payload order tally hpub =>
    have hp := h.publishing _ hpub
    cases hst
    have hvis : (Publication.mk t payload order [] .visiting tally).visited j :=
      ⟨List.not_mem_nil, fun hph => by cases hph⟩
    by_cases hc : tally.commits = true
    · have hafter : ∀ t', Cluster.ceiling
          { s with
            orders := if tally.commits = true then s.orders.insert t order else s.orders
            publishing := none
            returned := s.returned ++ [(t, tally.answer.mapError PublishError.ofBackplane)] } j t' =
          if t' = t then order else s.lastOrder t' := by
        intro t'
        rw [ceiling_of_idle rfl]
        simp only [lastOrder, hc, if_true]
        exact lastOrder_insert s t t' order
      refine .rested rfl id ?_ ?_
      · intro t'
        rw [hafter, ceiling_of_publishing hpub]
        by_cases ht : t' = t
        · subst ht
          have hord : order = s.lastOrder t' + 1 := hp.order
          rw [if_pos rfl]
          split
          · exact le_rfl
          · omega
        · rw [if_neg ht, if_neg fun hin => ht hin.1.symm]
      · intro hlive _
        funext t'
        rw [hafter, ceiling_of_publishing hpub]
        -- a live sink has answered, so the stamp burnt because one accepted
        have hdel : tally.deliveredAny = true := by
          have hheard := hp.heard j hlive hvis
          simp only [Tally.commits, Bool.or_eq_true, Bool.not_eq_true'] at hc hheard
          rcases hc with hd | hnone
          · exact hd
          · rcases hheard with hd | hsome
            · exact hd
            · rw [hnone] at hsome
              cases hsome
        by_cases ht : t' = t
        · subst ht
          rw [if_pos rfl, if_pos ⟨rfl, hdel, hvis⟩]
        · rw [if_neg ht, if_neg fun hin => ht hin.1.symm]
    · have hdel : ¬ tally.deliveredAny = true := by
        intro hd
        exact hc (by simp [Tally.commits, hd])
      refine Turn.same rfl id ?_
      funext t'
      rw [ceiling_of_publishing hpub, ceiling_of_idle rfl]
      simp only [lastOrder, if_neg hc]
      rw [if_neg fun hin => hdel hin.2.1]
  · cases hst

theorem turn_reserve {i : NodeId} (hg : s.Unsaturated (.reserve i))
    (hst : s.reserve b o i = some s') (j : NodeId) : Turn b o s s' j (.reserve i) := by
  unfold reserve at hst
  split at hst
  · next t hpub hlive hq =>
    rw [Option.map_eq_some_iff] at hst
    obtain ⟨n, hn, rfl⟩ := hst
    have hnext : saturatingSucc (s.lastOrder t) = s.lastOrder t + 1 :=
      saturatingSucc_of_lt (hg t (by simp [stamped, hq]))
    have hafter : ∀ t', Cluster.ceiling
        { s.setNode i n with orders := s.orders.insert t (saturatingSucc (s.lastOrder t)) } j t' =
        if t' = t then s.lastOrder t + 1 else s.lastOrder t' := by
      intro t'
      refine Eq.trans (ceiling_of_idle ?_ j t') ?_
      · exact hpub
      · rw [← hnext]
        exact lastOrder_insert s t t' _
    by_cases hj : j = i
    · subst hj
      refine .reserved (t := t) ?_ hq rfl ?_
      · simpa [ceiling_of_idle hpub, hnext] using hn
      · intro t'
        rw [hafter, ceiling_of_idle hpub, ceiling_of_idle hpub]
    · refine .passed (nodes_setNode_of_ne hj n) rfl hq ?_
      intro t'
      rw [hafter, ceiling_of_idle hpub, ceiling_of_idle hpub]
  · cases hst

/-- **What a step does to one node and to its ceiling.** -/
theorem step_turn {a : ClusterAction} (h : WF b o s) (hg : s.Unsaturated a)
    (hst : s.step b o a = some s') (j : NodeId) : Turn b o s s' j a := by
  cases a with
  | attach =>
    simp only [step] at hst
    split at hst
    · next hpub =>
      cases hst
      by_cases hj : j = ⟨s.next⟩
      · subst hj
        exact .created (Function.update_self _ _ _)
      · refine Turn.same (Function.update_of_ne hj _ _) ?_ rfl
        simp only [Function.update_of_ne hj]
        exact id
    · cases hst
  | dropNode i =>
    simp only [step] at hst
    split at hst
    · cases hst
    · cases hst
      refine Turn.same rfl ?_ rfl
      intro hlive
      by_cases hj : j = i
      · simp [hj] at hlive
      · simpa [Function.update_of_ne hj] using hlive
  | node i a =>
    simp only [step] at hst
    split at hst
    · next hown =>
      rw [Option.map_eq_some_iff] at hst
      obtain ⟨n, hn, rfl⟩ := hst
      by_cases hj : j = i
      · subst hj
        refine .moved (x := a) ?_ ?_ rfl rfl
        · simpa using hn
        · -- the actions that take a stamp are not the node's own
          simp only [Bool.and_eq_true] at hown
          revert hown
          cases a <;> simp [NodeAction.isOwn, NodeAction.stamps]
      · exact Turn.same (nodes_setNode_of_ne hj n) id rfl
    · cases hst
  | publishCall i t payload =>
    simp only [step] at hst
    split at hst
    · cases hst
    · split at hst
      · cases hst; exact Turn.same rfl id rfl
      · cases hst; exact Turn.same rfl id rfl
  | publishLock k =>
    simp only [step, publishLock] at hst
    split at hst
    · next t payload hpub hk =>
      cases hst
      refine Turn.same rfl id ?_
      funext t'
      rw [ceiling_of_idle hpub, ceiling_of_publishing rfl, if_neg (by simp [Tally.empty])]
      rfl
    · cases hst
  | visit => exact turn_visit h hst j
  | fanOut policy => exact turn_fanOut h hst j
  | leave =>
    simp only [step, leave] at hst
    split at hst
    · next t payload order todo i tally hpub =>
      split at hst
      · cases hst
        refine turn_of_publishing h hpub rfl rfl rfl rfl rfl rfl id ?_ ?_
        · exact fun hv => ⟨hv.1, fun hph => by cases hph⟩
        · exact fun _ _ hd hv => ⟨hd, hv.1, fun hph => by cases hph⟩
      · cases hst
    · cases hst
  | settle => exact turn_settle h hst j
  | reserve i => exact turn_reserve hg hst j

end Cluster
end Pubsub
end TightbeamExt
