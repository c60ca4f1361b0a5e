import TightbeamExt.Pubsub.Authorize
import TightbeamExt.Pubsub.Cluster

/-!
# A wire publish

A `pub/` command that passed its policy goes through three layers: the registry that
answers it, the backplane, and `deliver` of every sink.  Between any two sinks the rest of
the system moves.  A publish is watched here from the moment it takes the backplane lock to
the moment it lets go of it, as the trace of everything that happened meanwhile.

## Main definitions

* `Cluster.Sane` — the invariant of all runs, saturated counters included.
* `Cluster.pub` — an allowed `pub/` command up to the backplane.
* `Cluster.Session` — a publish between its two ends, and the moves so far.
* `Cluster.Untouched`, `Cluster.Hands` — what a move of the publish does to the nodes.

## Main results

* `publish_all_or_nothing` — **a publish that is not answered `Ok` changed nothing; one
  that is reached every member of every node that was not draining, once.**
* `publish_repeats_last_stamp` — at the top of its range the counter stays where it is.
-/

namespace TightbeamExt
namespace Pubsub

open Transition

/-- A node without its lanes. -/
def Node.registry (n : Node) : TopicRegistry := ⟨n.draining, n.nextSubscriber, n.state⟩

/-- On its own a node condemns nobody. -/
theorem Node.doomed_own {b : FrameBuilder} {o : RegistryOptions} {n n' : Node} {a : NodeAction}
    (hst : n.step b o a = some n') (hown : a.isOwn = true) (hnil : n.doomed = []) :
    n'.doomed = [] := by
  cases Node.fires_of_step hst with
  | registerBody c t =>
    unfold Node.registerBody
    split <;> exact hnil
  | unregister c t =>
    unfold Node.unregister
    split <;> exact hnil
  | disconnect c hfree hc => rw [hnil] at hc; cases hc
  | deliverBody t order payload policy hlock => cases hown
  | _ => exact hnil

namespace Cluster

variable {b : FrameBuilder} {o : NodeId → RegistryOptions} {s s' : Cluster}

/-! ### The invariant of all runs -/

/-- What holds in every run. -/
structure Sane (o : NodeId → RegistryOptions) (s : Cluster) : Prop where
  /-- The maps of the nodes agree. -/
  nodes : ∀ i, Node.Inv (o i) (s.nodes i)
  /-- Every live node is attached. -/
  attached : Attached s
  /-- Connections are condemned only by a publish that was accepted. -/
  doomed : ∀ i, (s.nodes i).doomed ≠ [] →
    ∃ p, s.publishing = some p ∧ p.phase = .disconnecting i ∧ p.tally.deliveredAny = true

theorem sane_init (o : NodeId → RegistryOptions) : Sane o init where
  nodes := fun _ => Node.inv_init _
  attached := ⟨List.nodup_nil, by simp [init], by simp [init]⟩
  doomed := by intro i hi; exact absurd rfl hi

/-- Without a publish nobody is condemned. -/
theorem Sane.undoomed_idle (h : Sane o s) (hpub : s.publishing = none) (i : NodeId) :
    (s.nodes i).doomed = [] := by
  by_contra hne
  obtain ⟨p, hp, -⟩ := h.doomed i hne
  rw [hpub] at hp
  cases hp

/-- Nor is anybody but at the end of a `deliver`. -/
theorem Sane.undoomed (h : Sane o s) {p : Publication} (hpub : s.publishing = some p)
    (hphase : ∀ i, p.phase ≠ .disconnecting i) (i : NodeId) : (s.nodes i).doomed = [] := by
  by_contra hne
  obtain ⟨q, hq, hqphase, -⟩ := h.doomed i hne
  rw [hpub] at hq
  cases hq
  exact hphase i hqphase

theorem Sane.setNode_inv (h : Sane o s) {i : NodeId} {a : NodeAction} {n : Node}
    (hst : (s.nodes i).step b (o i) a = some n) (j : NodeId) :
    Node.Inv (o j) ((s.setNode i n).nodes j) := by
  by_cases hj : j = i
  · subst hj
    rw [nodes_setNode_self]
    exact Node.inv_step (h.nodes j) hst
  · rw [nodes_setNode_of_ne hj]
    exact h.nodes j

theorem doomed_setNode (hnil : ∀ j, (s.nodes j).doomed = []) {i : NodeId} {n : Node}
    (hn : n.doomed = []) (j : NodeId) : ((s.setNode i n).nodes j).doomed = [] := by
  by_cases hj : j = i
  · subst hj
    rw [nodes_setNode_self]
    exact hn
  · rw [nodes_setNode_of_ne hj]
    exact hnil j

theorem doomed_of_all {s : Cluster} (hnil : ∀ j, (s.nodes j).doomed = []) (i : NodeId)
    (hne : (s.nodes i).doomed ≠ []) :
    ∃ p, s.publishing = some p ∧ p.phase = .disconnecting i ∧ p.tally.deliveredAny = true :=
  absurd (hnil i) hne

theorem sane_node (h : Sane o s) {i : NodeId} {a : NodeAction} {n : Node} (hown : a.isOwn = true)
    (hst : (s.nodes i).step b (o i) a = some n) : Sane o (s.setNode i n) where
  nodes := h.setNode_inv hst
  attached := ⟨h.attached.nodup, h.attached.known, h.attached.live⟩
  doomed := by
    intro j hj
    by_cases hji : j = i
    · subst hji
      rw [nodes_setNode_self] at hj
      refine h.doomed j ?_
      intro hnil
      exact hj (Node.doomed_own hst hown hnil)
    · rw [nodes_setNode_of_ne hji] at hj
      exact h.doomed j hj

theorem sane_visit (h : Sane o s) (hst : s.visit b o = some s') : Sane o s' := by
  obtain ⟨p, i, todo, hpub, -, hphase, hcase⟩ := visit_cases hst
  have hnil := h.undoomed hpub (by simp [hphase])
  rcases hcase with ⟨hdead, rfl⟩ | ⟨-, rfl⟩ | ⟨n, -, hn, rfl⟩
  · exact ⟨h.nodes, h.attached.erase hdead _, doomed_of_all hnil⟩
  · exact ⟨h.nodes, ⟨h.attached.nodup, h.attached.known, h.attached.live⟩, doomed_of_all hnil⟩
  · refine ⟨h.setNode_inv hn, ⟨h.attached.nodup, h.attached.known, h.attached.live⟩,
      doomed_of_all (doomed_setNode hnil ?_)⟩
    cases Node.fires_of_step hn
    exact hnil i

/-- What the fan-out finds and does. -/
theorem fanOut_cases {policy : SubscriberId → DeliveryPolicy}
    (hst : s.fanOut b o policy = some s') :
    ∃ p i n, s.publishing = some p ∧ p.phase = .delivering i ∧
      (s.nodes i).lock = .delivering ∧
      n = (s.nodes i).deliverBody b (o i) p.topic p.order p.payload policy ∧
      s' = { s.setNode i n with
        publishing := some { p with
          phase := .disconnecting i
          tally := p.tally.record (delivery b p) } } := by
  unfold fanOut at hst
  split at hst
  · next t payload order todo i tally hpub =>
    rw [Option.map_eq_some_iff] at hst
    obtain ⟨n, hn, rfl⟩ := hst
    refine ⟨_, i, n, hpub, rfl, ?_, ?_, rfl⟩
    · cases Node.fires_of_step hn with
      | deliverBody _ _ _ _ hlock => exact hlock
    · cases Node.fires_of_step hn with
      | deliverBody _ _ _ _ hlock => rfl
  · cases hst

theorem sane_fanOut (h : Sane o s) {policy : SubscriberId → DeliveryPolicy}
    (hst : s.fanOut b o policy = some s') : Sane o s' := by
  obtain ⟨p, i, n, hpub, hphase, hlock, hn, rfl⟩ := fanOut_cases hst
  have hnil := h.undoomed hpub (by simp [hphase])
  have hnode : (s.nodes i).step b (o i) (.deliverBody p.topic p.order p.payload policy) = some n := by
    rw [hn]
    simp [Node.step, hlock]
  refine ⟨h.setNode_inv hnode, ⟨h.attached.nodup, h.attached.known, h.attached.live⟩, ?_⟩
  intro j hj
  have hji : j = i := by
    by_contra hne
    refine hj ?_
    show ((s.setNode i n).nodes j).doomed = []
    rw [nodes_setNode_of_ne hne]
    exact hnil j
  subst hji
  refine ⟨_, rfl, rfl, ?_⟩
  show (p.tally.record (delivery b p)).deliveredAny = true
  rw [Tally.deliveredAny_record, Bool.or_eq_true]
  refine .inr ?_
  -- a frame that does not build condemns nobody
  have hdoomed : n.doomed ≠ [] := by
    have hj' : ((s.setNode j n).nodes j).doomed ≠ [] := hj
    rwa [nodes_setNode_self] at hj'
  unfold delivery
  cases hbuild : updateFrame b p.topic p.order p.payload with
  | ok f => rfl
  | error cause =>
    refine absurd ?_ hdoomed
    rw [hn, Node.deliverBody, hbuild]
    exact hnil j

theorem leave_cases (hst : s.leave = some s') :
    ∃ p i, s.publishing = some p ∧ p.phase = .disconnecting i ∧ (s.nodes i).doomed = [] ∧
      s' = { s with publishing := some { p with phase := .visiting } } := by
  unfold leave at hst
  split at hst
  · next t payload order todo i tally hpub =>
    split at hst
    · next hnil => cases hst; exact ⟨_, i, hpub, rfl, hnil, rfl⟩
    · cases hst
  · cases hst

theorem sane_leave (h : Sane o s) (hst : s.leave = some s') : Sane o s' := by
  obtain ⟨p, i, hpub, hphase, hnil, rfl⟩ := leave_cases hst
  refine ⟨h.nodes, ⟨h.attached.nodup, h.attached.known, h.attached.live⟩, ?_⟩
  intro j hj
  obtain ⟨q, hq, hqphase, -⟩ := h.doomed j hj
  rw [hpub] at hq
  cases hq
  rw [hphase] at hqphase
  cases hqphase
  exact absurd hnil hj

theorem settle_cases (hst : s.settle = some s') :
    ∃ p, s.publishing = some p ∧ p.todo = [] ∧ p.phase = .visiting ∧
      s' = { s with
        orders := if p.tally.commits then s.orders.insert p.topic p.order else s.orders
        publishing := none
        returned := s.returned ++ [(p.topic, p.tally.answer.mapError PublishError.ofBackplane)] } := by
  unfold settle at hst
  split at hst
  · next t payload order tally hpub => cases hst; exact ⟨_, hpub, rfl, rfl, rfl⟩
  · cases hst

theorem sane_settle (h : Sane o s) (hst : s.settle = some s') : Sane o s' := by
  obtain ⟨p, hpub, -, hphase, rfl⟩ := settle_cases hst
  refine ⟨h.nodes, ⟨h.attached.nodup, h.attached.known, h.attached.live⟩,
    doomed_of_all (h.undoomed hpub (by simp [hphase]))⟩

theorem sane_attach (h : Sane o s) (hpub : s.publishing = none) :
    Sane o { s with
      nodes := Function.update s.nodes ⟨s.next⟩ Node.init
      live := Function.update s.live ⟨s.next⟩ true
      next := s.next + 1
      sinks := s.sinks.filter s.live ++ [⟨s.next⟩] } where
  nodes := by
    intro i
    by_cases hi : i = ⟨s.next⟩
    · subst hi
      simp only [Function.update_self]
      exact Node.inv_init _
    · simp only [Function.update_of_ne hi]
      exact h.nodes i
  attached := h.attached.attach
  doomed := by
    have hnil := h.undoomed_idle hpub
    refine doomed_of_all fun i => ?_
    by_cases hi : i = ⟨s.next⟩
    · subst hi
      simp only [Function.update_self]
      rfl
    · simp only [Function.update_of_ne hi]
      exact hnil i

theorem sane_dropNode (h : Sane o s) (i : NodeId) :
    Sane o { s with live := Function.update s.live i false } := by
  refine ⟨h.nodes, ⟨h.attached.nodup, h.attached.known, ?_⟩, h.doomed⟩
  intro j hj
  by_cases hji : j = i
  · simp [hji] at hj
  · exact h.attached.live j (by simpa [hji] using hj)

theorem sane_reserve (h : Sane o s) {i : NodeId} (hst : s.reserve b o i = some s') : Sane o s' := by
  unfold reserve at hst
  split at hst
  · next t hpub hlive hq =>
    rw [Option.map_eq_some_iff] at hst
    obtain ⟨n, hn, rfl⟩ := hst
    have hnil := h.undoomed_idle hpub
    refine ⟨h.setNode_inv hn, ⟨h.attached.nodup, h.attached.known, h.attached.live⟩,
      doomed_of_all (doomed_setNode hnil ?_)⟩
    cases Node.fires_of_step hn <;> exact hnil i
  · cases hst

/-- **The step lemma.** -/
theorem sane_step {a : ClusterAction} (h : Sane o s) (hst : s.step b o a = some s') : Sane o s' := by
  have hsame : Attached s := h.attached
  cases a with
  | attach =>
    simp only [step] at hst
    split at hst
    · next hpub => cases hst; exact sane_attach h hpub
    · cases hst
  | dropNode i =>
    simp only [step] at hst
    split at hst
    · cases hst
    · cases hst; exact sane_dropNode h i
  | node i a =>
    simp only [step] at hst
    split at hst
    · next hcan =>
      rw [Option.map_eq_some_iff] at hst
      obtain ⟨n, hn, rfl⟩ := hst
      rw [Bool.and_eq_true] at hcan
      exact sane_node h hcan.2 hn
    · cases hst
  | publishCall i t payload =>
    simp only [step] at hst
    split at hst
    · cases hst
    · split at hst
      · cases hst; exact ⟨h.nodes, ⟨hsame.nodup, hsame.known, hsame.live⟩, h.doomed⟩
      · cases hst; exact ⟨h.nodes, ⟨hsame.nodup, hsame.known, hsame.live⟩, h.doomed⟩
  | publishLock k =>
    simp only [step, publishLock] at hst
    split at hst
    · next t payload hpub hk =>
      cases hst
      have hnil := h.undoomed_idle hpub
      exact ⟨h.nodes, ⟨hsame.nodup, hsame.known, hsame.live⟩, doomed_of_all hnil⟩
    · cases hst
  | visit => exact sane_visit h hst
  | fanOut policy => exact sane_fanOut h hst
  | leave => exact sane_leave h hst
  | settle => exact sane_settle h hst
  | reserve i => exact sane_reserve h hst

theorem sane_of_reachable (h : Reachable (step b o) init s) : Sane o s :=
  h.invariant (sane_init o) fun _ _ _ _ hi _ hst => sane_step hi hst

/-! ### A publish from lock to answer -/

/-- The node is there and takes updates. -/
def ready (s : Cluster) (i : NodeId) : Bool := s.live i && !(s.nodes i).draining

/-- The move in which the publish reaches a node. -/
def arrives (i : NodeId) (m : Move Cluster ClusterAction) : Bool :=
  match m.action, m.before.publishing with
  | .visit, some p => decide (p.todo.head? = some i)
  | _, _ => false

/-- The move in which the publish fans out on a node. -/
def hands (i : NodeId) (m : Move Cluster ClusterAction) : Bool :=
  match m.action, m.before.publishing with
  | .fanOut _, some p => decide (p.phase = .delivering i)
  | _, _ => false

/-- A fan-out. -/
def handing (m : Move Cluster ClusterAction) : Bool :=
  match m.action with
  | .fanOut _ => true
  | _ => false

/-- A connection is dropped at the end of a `deliver`. -/
def disconnects (m : Move Cluster ClusterAction) : Bool :=
  match m.action with
  | .node _ (.disconnect _) => true
  | _ => false

/-- The refusal of a frame that does not build. -/
def buildRefusal (b : FrameBuilder) (p : Publication) : Option DeliverError :=
  match delivery b p with
  | .error cause => some cause
  | .ok () => none

/-- The publish `p` that took the lock in `s₀`, and the moves since. -/
structure Session (b : FrameBuilder) (s₀ : Cluster) (t : Topic) (payload : Octets)
    (moves : List (Move Cluster ClusterAction)) (s : Cluster) (p : Publication) : Prop where
  /-- It is at work. -/
  publishing : s.publishing = some p
  /-- On its topic. -/
  topic : p.topic = t
  /-- With its payload. -/
  body : p.payload = payload
  /-- And the next stamp. -/
  order : p.order = saturatingSucc (s₀.lastOrder t)
  /-- The counters wait. -/
  orders : s.orders = s₀.orders
  /-- Every sink is reached or still to be reached. -/
  reached : ∀ i, moves.countP (arrives i) + p.todo.count i = s₀.sinks.count i
  /-- A node that was ready when it was reached is fanned out on, or at it. -/
  handed : ∀ i, moves.countP (hands i) + (if p.phase = .delivering i then 1 else 0) =
    moves.countP fun m => arrives i m && m.before.ready i
  /-- A frame that builds is accepted. -/
  delivered : p.tally.deliveredAny = ((delivery b p).isOk && moves.any handing)
  /-- One that does not is refused hard. -/
  hard : p.tally.firstHard = if moves.any handing then buildRefusal b p else none
  /-- Connections are dropped only for an accepted update. -/
  dropped : ∀ m ∈ moves, disconnects m = true → p.tally.deliveredAny = true
  /-- The publish was at work all along. -/
  before : ∀ m ∈ moves, ∃ q, m.before.publishing = some q ∧ q.topic = t ∧ q.payload = payload ∧
    q.order = p.order

variable {s₀ : Cluster} {t : Topic} {payload : Octets} {p : Publication} {k : ℕ}
  {moves : List (Move Cluster ClusterAction)}

theorem session_lock (hcall : s.callers[k]? = some (t, payload))
    (hst : s.publishLock k = some s') : ∃ p, Session b s t payload [] s' p := by
  unfold publishLock at hst
  split at hst
  · next t' payload' hpub hk =>
    rw [hcall] at hk
    cases hk
    cases hst
    exact ⟨_, {
      publishing := rfl
      topic := rfl
      body := rfl
      order := rfl
      orders := rfl
      reached := by intro i; simp
      handed := by intro i; simp
      delivered := by simp [Tally.empty]
      hard := rfl
      dropped := by intro m hm; cases hm
      before := by intro m hm; cases hm }⟩
  · cases hst

theorem before_snoc {order : ℕ} {q : Publication} {m : Move Cluster ClusterAction}
    (h : ∀ m ∈ moves, ∃ q, m.before.publishing = some q ∧ q.topic = t ∧ q.payload = payload ∧
      q.order = order)
    (hq : m.before.publishing = some q) (ht : q.topic = t) (hp : q.payload = payload)
    (ho : q.order = order) :
    ∀ m' ∈ moves ++ [m], ∃ q, m'.before.publishing = some q ∧ q.topic = t ∧
      q.payload = payload ∧ q.order = order := by
  intro m' hm'
  rw [List.mem_append, List.mem_singleton] at hm'
  rcases hm' with hm' | rfl
  · exact h m' hm'
  · exact ⟨q, hq, ht, hp, ho⟩

/-- A move that is neither a visit nor a fan-out leaves the session as it is. -/
theorem Session.aside (h : Session b s₀ t payload moves s p) {a : ClusterAction} {phase : Phase}
    (hpub : s'.publishing = some { p with phase := phase }) (horders : s'.orders = s.orders)
    (hphase : ∀ i, phase = .delivering i ↔ p.phase = .delivering i)
    (hvisit : ∀ i, arrives i ⟨s, a, s'⟩ = false) (hfan : ∀ i, hands i ⟨s, a, s'⟩ = false)
    (hhand : handing ⟨s, a, s'⟩ = false)
    (hdrop : disconnects ⟨s, a, s'⟩ = true → p.tally.deliveredAny = true) :
    Session b s₀ t payload (moves ++ [⟨s, a, s'⟩]) s' { p with phase := phase } where
  publishing := hpub
  topic := h.topic
  body := h.body
  order := h.order
  orders := horders.trans h.orders
  reached := by
    intro i
    simp only [List.countP_append, List.countP_singleton, hvisit]
    exact h.reached i
  handed := by
    intro i
    simp only [List.countP_append, List.countP_singleton, hvisit, hfan, Bool.false_and, hphase]
    exact h.handed i
  delivered := by
    rw [List.any_append, List.any_cons, List.any_nil, hhand, Bool.or_false, Bool.or_false]
    exact h.delivered
  hard := by
    rw [List.any_append, List.any_cons, List.any_nil, hhand, Bool.or_false, Bool.or_false]
    exact h.hard
  dropped := by
    intro m hm
    rw [List.mem_append, List.mem_singleton] at hm
    rcases hm with hm | rfl
    · exact h.dropped m hm
    · exact hdrop
  before := before_snoc h.before h.publishing h.topic h.body rfl

/-- The publish reaches its next sink. -/
theorem Session.arrive (h : Session b s₀ t payload moves s p) {i : NodeId} {todo : List NodeId}
    {phase : Phase} {tally : Tally} (htodo : p.todo = i :: todo) (hvisiting : p.phase = .visiting)
    (hpub : s'.publishing = some { p with todo := todo, phase := phase, tally := tally })
    (horders : s'.orders = s.orders)
    (hphase : ∀ j, phase = .delivering j ↔ j = i ∧ s.ready i = true)
    (hdelivered : tally.deliveredAny = p.tally.deliveredAny)
    (hhard : tally.firstHard = p.tally.firstHard) :
    Session b s₀ t payload (moves ++ [⟨s, .visit, s'⟩]) s'
      { p with todo := todo, phase := phase, tally := tally } where
  publishing := hpub
  topic := h.topic
  body := h.body
  order := h.order
  orders := horders.trans h.orders
  reached := by
    intro j
    have hcount := h.reached j
    rw [htodo, List.count_cons] at hcount
    have harrive : arrives j ⟨s, .visit, s'⟩ = (i == j) := by
      simp only [arrives, h.publishing, htodo, List.head?_cons, Option.some.injEq]
      rfl
    simp only [List.countP_append, List.countP_singleton, harrive]
    omega
  handed := by
    intro j
    have hcount := h.handed j
    simp only [hvisiting, reduceCtorEq, if_false, Nat.add_zero] at hcount
    have harrive : arrives j ⟨s, .visit, s'⟩ = decide (i = j) := by
      simp only [arrives, h.publishing, htodo, List.head?_cons, Option.some.injEq]
    have hhands : hands j ⟨s, .visit, s'⟩ = false := rfl
    simp only [List.countP_append, List.countP_singleton, harrive, hhands, hphase, hcount]
    by_cases hij : i = j
    · subst hij
      simp
    · simp [hij, Ne.symm hij]
  delivered := by
    rw [List.any_append, List.any_cons, List.any_nil, Bool.or_false]
    simp only [handing, Bool.or_false]
    exact hdelivered.trans h.delivered
  hard := by
    rw [List.any_append, List.any_cons, List.any_nil, Bool.or_false]
    simp only [handing, Bool.or_false]
    exact hhard.trans h.hard
  dropped := by
    intro m hm hd
    rw [List.mem_append, List.mem_singleton] at hm
    rcases hm with hm | rfl
    · exact hdelivered.trans (h.dropped m hm hd)
    · cases hd
  before := before_snoc h.before h.publishing h.topic h.body rfl

theorem isHard_of_delivery {cause : DeliverError} (h : delivery b p = .error cause) :
    cause.isHard = true := by
  unfold delivery at h
  split at h
  · cases h; rfl
  · cases h

/-- The publish fans out. -/
theorem Session.hand (h : Session b s₀ t payload moves s p) {i : NodeId}
    {policy : SubscriberId → DeliveryPolicy}
    (hpub : s'.publishing = some { p with
      phase := .disconnecting i
      tally := p.tally.record (delivery b p) })
    (horders : s'.orders = s.orders) :
    Session b s₀ t payload (moves ++ [⟨s, .fanOut policy, s'⟩]) s'
      { p with phase := .disconnecting i, tally := p.tally.record (delivery b p) } where
  publishing := hpub
  topic := h.topic
  body := h.body
  order := h.order
  orders := horders.trans h.orders
  reached := by
    intro j
    have harrive : arrives j ⟨s, .fanOut policy, s'⟩ = false := rfl
    simp only [List.countP_append, List.countP_singleton, harrive]
    exact h.reached j
  handed := by
    intro j
    have hcount := h.handed j
    have harrive : arrives j ⟨s, .fanOut policy, s'⟩ = false := rfl
    have hhands : hands j ⟨s, .fanOut policy, s'⟩ = decide (p.phase = .delivering j) := by
      simp only [hands, h.publishing]
    simp only [List.countP_append, List.countP_singleton, harrive, hhands, Bool.false_and,
      decide_eq_true_eq, reduceCtorEq, if_false]
    exact hcount
  delivered := by
    rw [Tally.deliveredAny_record, h.delivered, List.any_append, List.any_cons, List.any_nil]
    show (_ || (delivery b p).isOk) = ((delivery b p).isOk && _)
    cases (delivery b p).isOk <;> simp [handing]
  hard := by
    rw [List.any_append, List.any_cons, List.any_nil]
    simp only [handing, Bool.true_or, Bool.or_true, if_true]
    have hbefore := h.hard
    show (p.tally.record (delivery b p)).firstHard = buildRefusal b p
    unfold buildRefusal at hbefore ⊢
    cases hd : delivery b p with
    | ok u =>
      rw [hd] at hbefore
      simpa [Tally.record] using hbefore
    | error cause =>
      rw [hd] at hbefore
      simp only [Tally.record, isHard_of_delivery hd, if_true, hbefore]
      split <;> rfl
  dropped := by
    intro m hm hd
    rw [List.mem_append, List.mem_singleton] at hm
    rcases hm with hm | rfl
    · show (p.tally.record (delivery b p)).deliveredAny = true
      rw [Tally.deliveredAny_record, h.dropped m hm hd]
      rfl
    · cases hd
  before := before_snoc h.before h.publishing h.topic h.body rfl

/-- **The step lemma.** -/
theorem Session.step (h : Session b s₀ t payload moves s p) (hsane : Sane o s) {a : ClusterAction}
    (ha : a ≠ .settle) (hst : s.step b o a = some s') :
    ∃ p', Session b s₀ t payload (moves ++ [⟨s, a, s'⟩]) s' p' := by
  have hpub := h.publishing
  cases a with
  | attach => simp [Cluster.step, hpub] at hst
  | dropNode i =>
    simp only [Cluster.step] at hst
    split at hst
    · cases hst
    · cases hst
      exact ⟨_, h.aside hpub rfl (fun _ => Iff.rfl) (fun _ => rfl) (fun _ => rfl) rfl
        fun hd => by cases hd⟩
  | node i a =>
    simp only [Cluster.step] at hst
    split at hst
    · rw [Option.map_eq_some_iff] at hst
      obtain ⟨n, hn, rfl⟩ := hst
      refine ⟨_, h.aside hpub rfl (fun _ => Iff.rfl) (fun _ => rfl) (fun _ => rfl) rfl ?_⟩
      intro hd
      -- whom a `deliver` drops was condemned by an accepted update
      cases Node.fires_of_step hn with
      | disconnect c hfree hc =>
        obtain ⟨q, hq, -, hdelivered⟩ := hsane.doomed i (List.ne_nil_of_mem hc)
        rw [hpub] at hq
        cases hq
        exact hdelivered
      | _ => cases hd
    · cases hst
  | publishCall i t' payload' =>
    simp only [Cluster.step] at hst
    split at hst
    · cases hst
    · split at hst
      · cases hst
        exact ⟨_, h.aside hpub rfl (fun _ => Iff.rfl) (fun _ => rfl) (fun _ => rfl) rfl
          fun hd => by cases hd⟩
      · cases hst
        exact ⟨_, h.aside hpub rfl (fun _ => Iff.rfl) (fun _ => rfl) (fun _ => rfl) rfl
          fun hd => by cases hd⟩
  | publishLock k => simp [Cluster.step, publishLock, hpub] at hst
  | visit =>
    obtain ⟨q, i, todo, hq, htodo, hvisiting, hcase⟩ := visit_cases hst
    rw [hpub] at hq
    cases hq
    rcases hcase with ⟨hdead, rfl⟩ | ⟨hdrain, rfl⟩ | ⟨n, hlive, hn, rfl⟩
    · refine ⟨_, h.arrive htodo hvisiting rfl rfl ?_ rfl rfl⟩
      intro j
      simp [hvisiting, ready, hdead]
    · refine ⟨_, h.arrive htodo hvisiting rfl rfl ?_ ?_ rfl⟩
      · intro j
        simp [hvisiting, ready, hdrain]
      · rw [Tally.deliveredAny_record]
        simp [Except.isOk, Except.toBool]
    · refine ⟨_, h.arrive htodo hvisiting rfl rfl ?_ rfl rfl⟩
      intro j
      have hopen : (s.nodes i).draining = false := by
        cases Node.fires_of_step hn with
        | deliverCheck hfree hd => exact hd
      simp [ready, hlive, hopen, eq_comm]
  | fanOut policy =>
    obtain ⟨q, i, n, hq, -, -, -, rfl⟩ := fanOut_cases hst
    rw [hpub] at hq
    cases hq
    exact ⟨_, h.hand rfl rfl⟩
  | leave =>
    obtain ⟨q, i, hq, hphase, -, rfl⟩ := leave_cases hst
    rw [hpub] at hq
    cases hq
    refine ⟨_, h.aside rfl rfl ?_ (fun _ => rfl) (fun _ => rfl) rfl fun hd => by cases hd⟩
    intro j
    simp [hphase]
  | settle => exact absurd rfl ha
  | reserve i => simp [Cluster.step, reserve, hpub] at hst

/-- **The run lemma.** -/
theorem Session.run (hlock : Session b s₀ t payload [] s p) (hreach : Reachable (Cluster.step b o) init s)
    (htrace : Trace (Cluster.step b o) s moves s') (hrun : ∀ m ∈ moves, m.action ≠ .settle) :
    ∃ p', Session b s₀ t payload moves s' p' := by
  induction htrace with
  | nil => exact ⟨p, hlock⟩
  | snoc htrace hst ih =>
    obtain ⟨q, hq⟩ := ih fun m hm => hrun m (List.mem_append_left _ hm)
    exact hq.step (sane_of_reachable (htrace.reachable hreach))
      (hrun _ (List.mem_append_right _ (List.mem_singleton_self _))) hst

/-! ### What the moves do -/

/-- The moves of the publish at work, the disconnects at the end of its `deliver` calls
included. -/
def ofPublish : ClusterAction → Bool
  | .visit => true
  | .fanOut _ => true
  | .leave => true
  | .node _ (.disconnect _) => true
  | _ => false

/-- No lane, no drop counter and no membership moved. -/
def Untouched (s s' : Cluster) : Prop :=
  ∀ i, (s'.nodes i).cells = (s.nodes i).cells ∧ (s'.nodes i).state = (s.nodes i).state

/-- Node `i` hands `update` to its members of `t`, and to nobody else. -/
structure Hands (t : Topic) (update : Frame) (i : NodeId) (s s' : Cluster) : Prop where
  /-- Each member is handed it once. -/
  members : ∀ id ∈ (s.nodes i).members t,
    ((s'.nodes i).cells id).history.handed = ((s.nodes i).cells id).history.handed ++ [update]
  /-- The other lanes stay. -/
  others : ∀ id ∉ (s.nodes i).members t, (s'.nodes i).cells id = (s.nodes i).cells id
  /-- So do the other nodes. -/
  elsewhere : ∀ j, j ≠ i → s'.nodes j = s.nodes j

theorem untouched_setNode {i : NodeId} {n : Node} (hc : n.cells = (s.nodes i).cells)
    (hs : n.state = (s.nodes i).state) : Untouched s (s.setNode i n) := by
  intro j
  by_cases hj : j = i
  · subst hj
    rw [nodes_setNode_self]
    exact ⟨hc, hs⟩
  · rw [nodes_setNode_of_ne hj]
    exact ⟨rfl, rfl⟩

theorem untouched_visit (hst : s.visit b o = some s') : Untouched s s' := by
  obtain ⟨p, i, todo, -, -, -, ⟨-, rfl⟩ | ⟨-, rfl⟩ | ⟨n, -, hn, rfl⟩⟩ := visit_cases hst
  · exact fun _ => ⟨rfl, rfl⟩
  · exact fun _ => ⟨rfl, rfl⟩
  · cases Node.fires_of_step hn
    exact untouched_setNode rfl rfl

theorem untouched_leave (hst : s.leave = some s') : Untouched s s' := by
  obtain ⟨p, i, -, -, -, rfl⟩ := leave_cases hst
  exact fun _ => ⟨rfl, rfl⟩

/-- A frame that does not build reaches no lane. -/
theorem untouched_fanOut {policy : SubscriberId → DeliveryPolicy} (hpub : s.publishing = some p)
    (hbuild : (delivery b p).isOk = false) (hst : s.fanOut b o policy = some s') :
    Untouched s s' := by
  obtain ⟨q, i, n, hq, -, -, hn, rfl⟩ := fanOut_cases hst
  rw [hpub] at hq
  cases hq
  have hsame : n.cells = (s.nodes i).cells ∧ n.state = (s.nodes i).state := by
    unfold delivery at hbuild
    rw [hn, Node.deliverBody]
    cases hu : updateFrame b p.topic p.order p.payload with
    | error cause => exact ⟨rfl, rfl⟩
    | ok f => rw [hu] at hbuild; cases hbuild
  exact untouched_setNode hsame.1 hsame.2

/-- A frame that builds reaches every member once. -/
theorem hands_fanOut (h : Sane o s) {policy : SubscriberId → DeliveryPolicy} {i : NodeId}
    (hpub : s.publishing = some p) (hphase : p.phase = .delivering i)
    (hbuild : (delivery b p).isOk = true) (hst : s.fanOut b o policy = some s') :
    Hands p.topic ⟨utf8 p.topic.name, p.order, p.payload⟩ i s s' := by
  obtain ⟨q, j, n, hq, hqphase, hlock, hn, rfl⟩ := fanOut_cases hst
  rw [hpub] at hq
  cases hq
  rw [hphase] at hqphase
  cases hqphase
  have hnode : (s.setNode i n).nodes i = n := nodes_setNode_self i n
  have heffect := Node.effect_deliverBody (b := b) (h.nodes i) hlock p.topic p.order p.payload policy
  rw [← hn] at heffect
  cases heffect with
  | calm hstamps => cases hstamps
  | refuse hcause =>
    unfold delivery at hbuild
    rw [hcause] at hbuild
    cases hbuild
  | deliver _ _ hf _ _ hpush hrest =>
    rw [← build_eq_ok hf]
    refine ⟨?_, ?_, fun j hj => nodes_setNode_of_ne hj n⟩
    · intro id hid
      obtain ⟨c, hc⟩ := (Node.mem_members (h.nodes i) p.topic id).mp hid
      obtain ⟨capacity, hcell⟩ := hpush id c hc
      show (((s.setNode i n).nodes i).cells id).history.handed = _
      rw [hnode, hcell, Cell.handed_push]
    · intro id hid
      show ((s.setNode i n).nodes i).cells id = _
      rw [hnode]
      refine hrest id fun c hc => hid ?_
      exact (Node.mem_members (h.nodes i) p.topic id).mpr ⟨c, hc⟩

/-- At the end of a `deliver` nothing is handed to anybody. -/
theorem handed_disconnect {i : NodeId} {c : ConnectionId} (h : Sane o s)
    (hst : s.step b o (.node i (.disconnect c)) = some s') (j : NodeId) (id : SubscriberId) :
    ((s'.nodes j).cells id).history.handed = ((s.nodes j).cells id).history.handed := by
  simp only [step] at hst
  split at hst
  · rw [Option.map_eq_some_iff] at hst
    obtain ⟨n, hn, rfl⟩ := hst
    by_cases hj : j = i
    · subst hj
      rw [nodes_setNode_self]
      cases Node.step_effect (h.nodes j) hn with
      | calm _ hc => exact (hc.logs id).handed
    · rw [nodes_setNode_of_ne hj]
  · cases hst

/-! ### The answer -/

theorem publishAnswer_eq_ok (answer : Except BackplaneError Unit) :
    PubsubCommands.publishAnswer (answer.mapError PublishError.ofBackplane) = .ok ↔
      answer = .ok () := by
  cases answer with
  | ok u => exact ⟨fun _ => rfl, fun _ => rfl⟩
  | error cause =>
    refine ⟨?_, fun h => by cases h⟩
    intro h
    cases hcause : PublishError.ofBackplane cause <;>
      simp [Except.mapError, PubsubCommands.publishAnswer, hcause] at h

/-- A publish that some sink refused hard, or that only draining ones answered, burned no
stamp, and what it fanned out did not build. -/
theorem Session.refused (h : Session b s₀ t payload moves s p) (hans : p.tally.answer ≠ .ok ()) :
    p.tally.commits = false ∧ p.tally.deliveredAny = false ∧
      (moves.any handing = true → (delivery b p).isOk = false) := by
  have hdelivered := h.delivered
  have hhard := h.hard
  cases hfan : moves.any handing with
  | false =>
    rw [hfan, Bool.and_false] at hdelivered
    simp only [hfan] at hhard
    cases hsoft : p.tally.firstSoft with
    | none => exact absurd (by simp [Tally.answer, hdelivered, hhard, hsoft]) hans
    | some cause => exact ⟨by simp [Tally.commits, Tally.refused, hdelivered, hsoft], hdelivered,
        fun hf => by cases hf⟩
  | true =>
    rw [hfan, Bool.and_true] at hdelivered
    simp only [hfan, if_true, buildRefusal] at hhard
    cases hd : delivery b p with
    | ok u =>
      rw [hd] at hdelivered hhard
      refine absurd ?_ hans
      simp [Tally.answer, hdelivered, hhard, Except.isOk, Except.toBool]
    | error cause =>
      rw [hd] at hdelivered hhard
      have hnone : p.tally.deliveredAny = false := hdelivered
      have hrefused : p.tally.refused = true := by
        rw [Tally.refused, hhard]
        rfl
      exact ⟨by simp [Tally.commits, hnone, hrefused], hnone, fun _ => rfl⟩

/-- A publish that is answered `Ok` burned its stamp, and what it fanned out did build. -/
theorem Session.accepted (h : Session b s₀ t payload moves s p) (hans : p.tally.answer = .ok ()) :
    p.tally.commits = true ∧ (moves.any handing = true → (delivery b p).isOk = true) := by
  have hhard := h.hard
  cases hfan : moves.any handing with
  | false =>
    simp only [hfan] at hhard
    refine ⟨?_, fun hf => by cases hf⟩
    cases hd : p.tally.deliveredAny with
    | true => simp [Tally.commits, hd]
    | false =>
      cases hsoft : p.tally.firstSoft with
      | none => simp [Tally.commits, Tally.refused, hhard, hsoft]
      | some cause => simp [Tally.answer, hd, hhard, hsoft] at hans
  | true =>
    simp only [hfan, if_true, buildRefusal] at hhard
    have hdelivered := h.delivered
    rw [hfan, Bool.and_true] at hdelivered
    cases hd : delivery b p with
    | ok u =>
      rw [hd] at hdelivered
      have hyes : p.tally.deliveredAny = true := hdelivered
      exact ⟨by simp [Tally.commits, hyes], fun _ => rfl⟩
    | error cause =>
      rw [hd] at hhard
      simp [Tally.answer, hhard] at hans

/-- An allowed `pub/` command on node `i` up to the backplane: the answer, if there is one
already. -/
def pub (i : NodeId) (t : Topic) (body : Option Octets) (s : Cluster) :
    Cluster × Option TransitStatus :=
  match body with
  | none => (s, some .invalidArgument)
  | some payload =>
      if (s.nodes i).draining then
        ({ s with returned := s.returned ++ [(t, .error .draining)] },
          some (PubsubCommands.publishAnswer (.error .draining)))
      else ({ s with callers := s.callers ++ [(t, payload)] }, none)

/-- With a payload it is the call of `TopicRegistry::publish`. -/
theorem pub_eq_step {i : NodeId} (hlive : s.live i = true) (t : Topic) (payload : Octets) :
    s.step b o (.publishCall i t payload) = some (s.pub i t (some payload)).1 := by
  simp only [step, pub, hlive, Bool.not_true, Bool.false_eq_true, if_false]
  split <;> rfl

theorem pub_answered {i : NodeId} {body : Option Octets} {status : TransitStatus}
    (h : s.pub i t body = (s', some status)) :
    status ≠ .ok ∧ s'.nodes = s.nodes ∧ s'.orders = s.orders := by
  unfold pub at h
  split at h
  · cases h
    exact ⟨by decide, rfl, rfl⟩
  · split at h
    · cases h
      exact ⟨by decide, rfl, rfl⟩
    · cases h

/-- Nothing is handed to anybody but in a fan-out. -/
theorem handed_of_not_handing (h : Sane o s) {a : ClusterAction} (hpub : ofPublish a = true)
    (hhand : handing ⟨s, a, s'⟩ = false) (hst : s.step b o a = some s') (j : NodeId)
    (id : SubscriberId) :
    ((s'.nodes j).cells id).history.handed = ((s.nodes j).cells id).history.handed := by
  unfold ofPublish at hpub
  split at hpub
  · rw [(untouched_visit hst j).1]
  · cases hhand
  · rw [(untouched_leave hst j).1]
  · exact handed_disconnect h hst j id
  · cases hpub

theorem mem_of_hands {i : NodeId} {m : Move Cluster ClusterAction} (h : hands i m = true) :
    handing m = true := by
  unfold hands at h
  split at h
  · next ha _ => simp [handing, ha]
  · cases h

/-- The publish at work in a move of the session delivers what the session does. -/
theorem Session.builds (h : Session b s₀ t payload moves s p) {m : Move Cluster ClusterAction}
    (hm : m ∈ moves) : ∃ q, m.before.publishing = some q ∧ q.topic = t ∧ q.payload = payload ∧
      q.order = p.order ∧ delivery b q = delivery b p := by
  obtain ⟨q, hq, ht, hb, ho⟩ := h.before m hm
  refine ⟨q, hq, ht, hb, ho, ?_⟩
  unfold delivery
  rw [ht, hb, ho, h.topic, h.body]

/-- A publish that is refused touches no node. -/
theorem Session.untouched (h : Session b s₀ t payload moves s p) (hans : p.tally.answer ≠ .ok ())
    {m : Move Cluster ClusterAction} (hm : m ∈ moves)
    (hst : m.before.step b o m.action = some m.after) (hpub : ofPublish m.action = true) :
    Untouched m.before m.after := by
  obtain ⟨-, hnone, hfailed⟩ := h.refused hans
  obtain ⟨q, hq, -, -, -, hbuilds⟩ := h.builds hm
  unfold ofPublish at hpub
  split at hpub
  · next ha => rw [ha] at hst; exact untouched_visit hst
  · next policy ha =>
    have hfan : moves.any handing = true := List.any_eq_true.mpr ⟨m, hm, by simp [handing, ha]⟩
    rw [ha] at hst
    refine untouched_fanOut hq ?_ hst
    rw [hbuilds]
    exact hfailed hfan
  · next ha => rw [ha] at hst; exact untouched_leave hst
  · next i c ha =>
    -- only an accepted update drops anybody
    have hdropped := h.dropped m hm (by simp [disconnects, ha])
    rw [hnone] at hdropped
    cases hdropped
  · cases hpub

/-- A publish that is done reached every live node once, and fanned out there if it was ready. -/
theorem Session.reached_once (h : Session b s₀ t payload moves s p) (hattached : Attached s₀)
    (htodo : p.todo = []) (hphase : p.phase = .visiting) {i : NodeId} (hi : s₀.live i = true) :
    ∃ m, moves.filter (arrives i) = [m] ∧
      moves.countP (hands i) = if m.before.ready i then 1 else 0 := by
  have hone : moves.countP (arrives i) = 1 := by
    have hcount := h.reached i
    rwa [htodo, List.count_nil, Nat.add_zero,
      List.count_eq_one_of_mem hattached.nodup (hattached.live i hi)] at hcount
  rw [List.countP_eq_length_filter, List.length_eq_one_iff] at hone
  obtain ⟨m, hm⟩ := hone
  refine ⟨m, hm, ?_⟩
  have hhanded := h.handed i
  rw [hphase, if_neg (by simp), Nat.add_zero] at hhanded
  simp only [Bool.and_comm (arrives i _)] at hhanded
  rw [hhanded, ← List.countP_filter, hm, List.countP_singleton]

/-- A publish that is accepted hands every fan-out the same update. -/
theorem Session.hands (h : Session b s₀ t payload moves s p) (hans : p.tally.answer = .ok ())
    {m : Move Cluster ClusterAction} (hm : m ∈ moves) (hsane : Sane o m.before)
    (hst : m.before.step b o m.action = some m.after) {i : NodeId}
    (hhand : Cluster.hands i m = true) :
    Hands t ⟨utf8 t.name, saturatingSucc (s₀.lastOrder t), payload⟩ i m.before m.after := by
  obtain ⟨-, hbuilt⟩ := h.accepted hans
  obtain ⟨q, hq, ht, hb, ho, hbuilds⟩ := h.builds hm
  have hok : (delivery b q).isOk = true := by
    rw [hbuilds]
    exact hbuilt (List.any_eq_true.mpr ⟨m, hm, mem_of_hands hhand⟩)
  unfold Cluster.hands at hhand
  split at hhand
  · next policy q' ha hq' =>
    rw [hq] at hq'
    cases hq'
    rw [ha] at hst
    have hhands := hands_fanOut hsane hq (by simpa using hhand) hok hst
    rwa [ht, hb, ho, h.order] at hhands
  · cases hhand

/-- **A wire publish is all or nothing.**  A command that is answered before the backplane
changed nothing.  A publish that takes the backplane lock, whatever else happens until it
lets go, leaves every lane, drop counter, membership and stamp counter alone if it is not
answered `Ok`; if it is, it burned the next stamp, reached every live node once, and handed
the update once to each member of the topic on those that were not draining then and to
nobody on the others. -/
theorem publish_all_or_nothing (b : FrameBuilder) (o : NodeId → RegistryOptions) :
    (∀ (s s' : Cluster) (i : NodeId) (t : Topic) (body : Option Octets) (status : TransitStatus),
      s.pub i t body = (s', some status) →
      status ≠ .ok ∧ s'.nodes = s.nodes ∧ s'.orders = s.orders) ∧
    ∀ (s₀ s₁ s₂ s₃ : Cluster) (k : ℕ) (t : Topic) (payload : Octets)
      (moves : List (Move Cluster ClusterAction)),
      Reachable (step b o) init s₀ → s₀.callers[k]? = some (t, payload) →
      s₀.step b o (.publishLock k) = some s₁ → Trace (step b o) s₁ moves s₂ →
      (∀ m ∈ moves, m.action ≠ .settle) → s₂.step b o .settle = some s₃ →
      ∃ result, s₃.returned = s₂.returned ++ [(t, result)] ∧ s₃.nodes = s₂.nodes ∧
        (PubsubCommands.publishAnswer result ≠ .ok →
          s₃.orders = s₀.orders ∧
          ∀ m ∈ moves, ofPublish m.action = true → Untouched m.before m.after) ∧
        (PubsubCommands.publishAnswer result = .ok →
          (∀ t', s₃.lastOrder t' =
            if t' = t then saturatingSucc (s₀.lastOrder t) else s₀.lastOrder t') ∧
          (∀ i, s₀.live i = true → ∃ m, moves.filter (arrives i) = [m] ∧
            moves.countP (hands i) = if m.before.ready i then 1 else 0) ∧
          (∀ m ∈ moves, ∀ i, hands i m = true →
            Hands t ⟨utf8 t.name, saturatingSucc (s₀.lastOrder t), payload⟩ i m.before m.after) ∧
          ∀ m ∈ moves, ofPublish m.action = true → handing m = false → ∀ j id,
            ((m.after.nodes j).cells id).history.handed =
              ((m.before.nodes j).cells id).history.handed) := by
  refine ⟨fun s s' i t body status => pub_answered, ?_⟩
  intro s₀ s₁ s₂ s₃ k t payload moves hreach hcall hlock htrace hrun hsettle
  have hreach₁ : Reachable (step b o) init s₁ := hreach.next trivial hlock
  obtain ⟨p₁, hp₁⟩ := session_lock (b := b) hcall hlock
  obtain ⟨p, hp⟩ := hp₁.run hreach₁ htrace hrun
  obtain ⟨q, hq, htodo, hphase, rfl⟩ := settle_cases hsettle
  rw [hp.publishing] at hq
  cases hq
  -- every move was made by the session, in a sane state
  have hmove : ∀ m ∈ moves, Sane o m.before ∧ m.before.step b o m.action = some m.after :=
    fun m hm => ⟨sane_of_reachable (htrace.mem hreach₁ hm).1, (htrace.mem hreach₁ hm).2⟩
  refine ⟨p.tally.answer.mapError PublishError.ofBackplane, by rw [hp.topic], rfl, ?_, ?_⟩
  · intro hans
    rw [ne_eq, publishAnswer_eq_ok] at hans
    obtain ⟨hcommits, -, -⟩ := hp.refused hans
    refine ⟨by simp [hcommits, hp.orders], ?_⟩
    intro m hm hpub
    exact hp.untouched hans hm (hmove m hm).2 hpub
  · intro hans
    rw [publishAnswer_eq_ok] at hans
    obtain ⟨hcommits, -⟩ := hp.accepted hans
    refine ⟨?_, ?_, ?_, ?_⟩
    · intro t'
      show ((if p.tally.commits then s₂.orders.insert p.topic p.order else s₂.orders).lookup
        t').getD 0 = _
      rw [hcommits, if_pos rfl, hp.orders, hp.topic, hp.order]
      exact lastOrder_insert s₀ t t' _
    · intro i hi
      exact hp.reached_once (sane_of_reachable hreach).attached htodo hphase hi
    · intro m hm i hhand
      obtain ⟨hsane, hst⟩ := hmove m hm
      exact hp.hands hans hm hsane hst hhand
    · intro m hm hpub hhand j id
      obtain ⟨hsane, hst⟩ := hmove m hm
      exact handed_of_not_handing hsane hpub hhand hst j id

/-! ### The top of the counter -/

/-- One node with a member of `t`, at rest, and the counter of `t` at `n`. -/
structure Serving (t : Topic) (n : ℕ) (s : Cluster) : Prop where
  /-- No publish is at work. -/
  idle : s.publishing = none
  /-- Nor waits. -/
  quiet : s.callers = []
  /-- There is one sink. -/
  alone : s.sinks = [⟨0⟩]
  /-- It is ready. -/
  ready : s.ready ⟨0⟩ = true
  /-- Its lock is free. -/
  free : (s.nodes ⟨0⟩).lock = .free
  /-- It condemned nobody. -/
  calm : (s.nodes ⟨0⟩).doomed = []
  /-- It has a member. -/
  member : ⟨1⟩ ∈ (s.nodes ⟨0⟩).members t
  /-- The counter. -/
  order : s.lastOrder t = n

theorem members_setLastOrder (n : Node) (t t' : Topic) (f : ℕ → ℕ) :
    Node.members { n with state := n.state.setLastOrder t f } t' = n.members t' := by
  unfold Node.members State.setLastOrder
  simp only [Table.lookup_modify]
  split
  · next h =>
    split at h
    · next ht => subst ht; rw [Option.map_eq_none_iff.mp h]
    · rw [h]
  · next entry h =>
    split at h
    · next ht =>
      subst ht
      obtain ⟨e, he, rfl⟩ := Option.map_eq_some_iff.mp h
      rw [he]
    · rw [h]

/-- A policy that evicts always finds room. -/
theorem push_dropOldest (capacity : ℕ) (topic : Topic) (f : Frame) (c : Cell) :
    (c.push capacity dropOldest topic f).2 = .delivered := by
  unfold Cell.push Cell.offered dropOldest
  by_cases hroom : c.lane.queue.length < capacity
  · simp [hroom]
  · simp [hroom]

/-- So nobody is condemned. -/
theorem doomedBy_dropOldest (r : RegistryOptions) (f : Frame) (n : Node) (id : SubscriberId) :
    Node.doomedBy r (fun _ => dropOldest) f n id = none := by
  unfold Node.doomedBy
  split
  · rfl
  · next subscriber _ => rw [push_dropOldest]

/-- The node after a fan-out that evicts. -/
def fanned (r : RegistryOptions) (t : Topic) (order : ℕ) (n : Node) : Node :=
  Node.deliverBody .total r t order [] (fun _ => dropOldest) { n with lock := .delivering }

theorem fanned_eq (r : RegistryOptions) (t : Topic) (order : ℕ) (n : Node) :
    (fanned r t order n).draining = n.draining ∧ (fanned r t order n).lock = .free ∧
      (fanned r t order n).doomed = n.doomed ∧
      (fanned r t order n).members t = n.members t := by
  refine ⟨rfl, rfl, ?_, members_setLastOrder { n with lock := .delivering } t t _⟩
  show n.doomed ++ List.filterMap _ _ = n.doomed
  rw [List.filterMap_eq_nil_iff.mpr fun id _ => doomedBy_dropOldest r _ _ id, List.append_nil]

/-- The publish at work on such a node. -/
def round (t : Topic) (order : ℕ) (todo : List NodeId) (phase : Phase) (tally : Tally) :
    Publication :=
  ⟨t, [], order, todo, phase, tally⟩

/-- A publish on such a node, from the call to the answer. -/
theorem serving_publish (o : NodeId → RegistryOptions) {t : Topic} {n : ℕ} {s : Cluster}
    (h : Serving t n s) :
    ∃ s₀ s₁ s₂ s₃ m₁ m₂ m₃, s.step .total o (.publishCall ⟨0⟩ t []) = some s₀ ∧
      s₀.callers[0]? = some (t, []) ∧ s₀.lastOrder t = n ∧
      s₀.step .total o (.publishLock 0) = some s₁ ∧
      Trace (step .total o) s₁ [m₁, m₂, m₃] s₂ ∧ m₁.action = .visit ∧
      m₂.action = (.fanOut fun _ => dropOldest) ∧ m₃.action = .leave ∧
      (∃ p, m₂.before.publishing = some p ∧ p.topic = t ∧ p.order = saturatingSucc n ∧
        p.payload = [] ∧ p.phase = .delivering ⟨0⟩) ∧
      (m₂.before.nodes ⟨0⟩).members t = (s.nodes ⟨0⟩).members t ∧
      s₂.step .total o .settle = some s₃ ∧ s₃.returned = s₂.returned ++ [(t, .ok ())] ∧
      Serving t (saturatingSucc n) s₃ := by
  obtain ⟨idle, quiet, alone, hready, free, calm, member, order⟩ := h
  obtain ⟨hlive, hopen⟩ : s.live ⟨0⟩ = true ∧ (s.nodes ⟨0⟩).draining = false := by
    simpa [Cluster.ready] using hready
  obtain ⟨hdraining, hlock, hdoomed, hmembers⟩ :=
    fanned_eq (o ⟨0⟩) t (saturatingSucc n) (s.nodes ⟨0⟩)
  let w := saturatingSucc n
  let accepted := Tally.empty.record (.ok ())
  -- the states in between
  let called : Cluster := { s with callers := [(t, [])] }
  let locked : Cluster :=
    { s with callers := [], publishing := some (round t w [⟨0⟩] .visiting .empty) }
  let inside : Cluster :=
    { locked.setNode ⟨0⟩ { s.nodes ⟨0⟩ with lock := .delivering } with
      publishing := some (round t w [] (.delivering ⟨0⟩) .empty) }
  let outside : Cluster :=
    { inside.setNode ⟨0⟩ (fanned (o ⟨0⟩) t w (s.nodes ⟨0⟩)) with
      publishing := some (round t w [] (.disconnecting ⟨0⟩) accepted) }
  let done : Cluster :=
    { outside with publishing := some (round t w [] .visiting accepted) }
  have hcall : s.step .total o (.publishCall ⟨0⟩ t []) = some called := by
    simp [step, hlive, hopen, quiet, called]
  have htake : called.step .total o (.publishLock 0) = some locked := by
    simp [step, publishLock, called, locked, idle, alone, round, w, ← order, lastOrder]
  have hvisit : locked.step .total o .visit = some inside := by
    simp [step, visit, locked, inside, round, hlive, hopen, free, Node.unlocked, Node.step, setNode]
  have hfan : inside.step .total o (.fanOut fun _ => dropOldest) = some outside := by
    simp [step, fanOut, inside, outside, round, setNode, Node.step, fanned, delivery, updateFrame,
      build, FrameBuilder.total, accepted]
  have hleave : outside.step .total o .leave = some done := by
    simp [step, leave, outside, done, round, setNode, hdoomed, calm, w]
  have hsettle : done.step .total o .settle = some
      { done with
        orders := s.orders.insert t w
        publishing := none
        returned := s.returned ++ [(t, .ok ())] } := by
    simp [step, settle, done, outside, inside, locked, round, accepted, Tally.record, Tally.empty,
      Tally.commits, Tally.answer, setNode, Except.mapError]
  have hnode : done.nodes ⟨0⟩ = fanned (o ⟨0⟩) t w (s.nodes ⟨0⟩) := by
    simp [done, outside, setNode]
  refine ⟨called, locked, done, _, ⟨locked, .visit, inside⟩, ⟨inside, _, outside⟩,
    ⟨outside, .leave, done⟩, hcall, rfl, order, htake, ?_, rfl, rfl, rfl,
    ⟨_, rfl, rfl, rfl, rfl, rfl⟩, ?_, hsettle, rfl, ?_⟩
  · exact ((Trace.nil.snoc hvisit).snoc hfan).snoc hleave
  · simp [inside, setNode, Node.members]
  · exact {
      idle := rfl
      quiet := rfl
      alone := alone
      ready := by
        show (s.live ⟨0⟩ && !(done.nodes ⟨0⟩).draining) = true
        rw [hnode, hdraining, hlive, hopen]
        rfl
      free := by
        show (done.nodes ⟨0⟩).lock = .free
        rw [hnode, hlock]
      calm := by
        show (done.nodes ⟨0⟩).doomed = []
        rw [hnode, hdoomed, calm]
      member := by
        show ⟨1⟩ ∈ (done.nodes ⟨0⟩).members t
        rw [hnode, hmembers]
        exact member
      order := by
        show ((s.orders.insert t w).lookup t).getD 0 = saturatingSucc n
        rw [lastOrder_insert, if_pos rfl] }

/-- One node with a subscription. -/
def subscribed : List ClusterAction := .attach :: (Node.subscribing Topic.prices).map (.node ⟨0⟩)

/-- Every counter value is reached. -/
theorem serving_reachable (n : ℕ) (hn : n ≤ u64Max) :
    ∃ s, Reachable (step .total fun _ => .default) init s ∧ Serving Topic.prices n s := by
  induction n with
  | zero =>
    obtain ⟨s, hrun⟩ : ∃ s, runs (step .total fun _ => .default) init subscribed = some s :=
      ⟨_, rfl⟩
    refine ⟨s, .of_runs hrun, ?_⟩
    cases hrun
    exact ⟨rfl, rfl, rfl, rfl, rfl, rfl, by decide +kernel, rfl⟩
  | succ n ih =>
    obtain ⟨s, hreach, hs⟩ := ih (by omega)
    obtain ⟨s₀, s₁, s₂, s₃, m₁, m₂, m₃, hcall, -, -, hlock, htrace, -, -, -, -, -, hsettle, -,
      hserving⟩ := serving_publish (fun _ => .default) hs
    have hreach₁ := (hreach.next trivial hcall).next trivial hlock
    refine ⟨s₃, (htrace.reachable hreach₁).next trivial hsettle, ?_⟩
    rwa [saturatingSucc_of_lt (by omega)] at hserving

/-- At `u64::MAX` the counter saturates: a publish is answered `Ok` and hands out the stamp
of the publish before it, not the one after. -/
theorem publish_repeats_last_stamp :
    ∃ (s₀ s₁ s₂ s₃ : Cluster) (moves : List (Move Cluster ClusterAction))
      (m : Move Cluster ClusterAction),
      Reachable (step .total fun _ => .default) init s₀ ∧
      s₀.callers[0]? = some (Topic.prices, []) ∧
      s₀.step .total (fun _ => .default) (.publishLock 0) = some s₁ ∧
      Trace (step .total fun _ => .default) s₁ moves s₂ ∧ (∀ m ∈ moves, m.action ≠ .settle) ∧
      s₂.step .total (fun _ => .default) .settle = some s₃ ∧
      s₃.returned = s₂.returned ++ [(Topic.prices, .ok ())] ∧
      m ∈ moves ∧ hands ⟨0⟩ m = true ∧ ⟨1⟩ ∈ (m.before.nodes ⟨0⟩).members Topic.prices ∧
      Hands Topic.prices ⟨utf8 Topic.prices.name, s₀.lastOrder Topic.prices, []⟩ ⟨0⟩
        m.before m.after ∧
      ¬ Hands Topic.prices ⟨utf8 Topic.prices.name, s₀.lastOrder Topic.prices + 1, []⟩ ⟨0⟩
        m.before m.after := by
  obtain ⟨s, hreach, hs⟩ := serving_reachable u64Max le_rfl
  obtain ⟨s₀, s₁, s₂, s₃, m₁, m₂, m₃, hcall, hcaller, horder, hlock, htrace, ha₁, ha₂, ha₃,
    ⟨p, hp, htopic, hstamp, hbody, hphase⟩, hmembers, hsettle, hreturned, -⟩ :=
    serving_publish (fun _ => .default) hs
  have hreach₀ := hreach.next trivial hcall
  have hreach₁ := hreach₀.next trivial hlock
  have hm₂ : m₂ ∈ [m₁, m₂, m₃] := by simp
  obtain ⟨hbefore, hst⟩ := htrace.mem hreach₁ hm₂
  rw [ha₂] at hst
  have hbuild : (delivery .total p).isOk = true := rfl
  have hhands := hands_fanOut (sane_of_reachable hbefore) hp hphase hbuild hst
  have hsame : saturatingSucc u64Max = s₀.lastOrder Topic.prices := by
    rw [horder]
    decide
  rw [htopic, hstamp, hbody, hsame] at hhands
  have hmember : ⟨1⟩ ∈ (m₂.before.nodes ⟨0⟩).members Topic.prices := by
    rw [hmembers]
    exact hs.member
  refine ⟨s₀, s₁, s₂, s₃, [m₁, m₂, m₃], m₂, hreach₀, hcaller, hlock, htrace, ?_, hsettle,
    hreturned, hm₂, ?_, hmember, hhands, ?_⟩
  · simp [ha₁, ha₂, ha₃]
  · simp [hands, ha₂, hp, hphase]
  · intro hnext
    have hboth := (hhands.members ⟨1⟩ hmember).symm.trans (hnext.members ⟨1⟩ hmember)
    simp at hboth

/-- A first publish on a node with a member: it is reached once and the stamp is `1`. -/
theorem first_publish_reaches_member :
    ∃ (s₀ s₁ s₂ s₃ : Cluster) (moves : List (Move Cluster ClusterAction)),
      Reachable (step .total fun _ => .default) init s₀ ∧
      s₀.step .total (fun _ => .default) (.publishLock 0) = some s₁ ∧
      Trace (step .total fun _ => .default) s₁ moves s₂ ∧
      s₂.step .total (fun _ => .default) .settle = some s₃ ∧
      s₃.lastOrder Topic.prices = 1 ∧
      ∃ m, moves.filter (arrives ⟨0⟩) = [m] ∧
        moves.countP (hands ⟨0⟩) = if m.before.ready ⟨0⟩ then 1 else 0 := by
  obtain ⟨s, hreach, hs⟩ := serving_reachable 0 (Nat.zero_le _)
  obtain ⟨s₀, s₁, s₂, s₃, m₁, m₂, m₃, hcall, hcaller, horder, hlock, htrace, ha₁, ha₂, ha₃, -, -,
    hsettle, hreturned, -⟩ := serving_publish (fun _ => .default) hs
  have hreach₀ := hreach.next trivial hcall
  have hlive : s₀.live ⟨0⟩ = true := by
    have hready : s.live ⟨0⟩ = true ∧ (s.nodes ⟨0⟩).draining = false := by
      simpa [Cluster.ready] using hs.ready
    simp only [step, hready] at hcall
    cases hcall
    exact hready.1
  obtain ⟨result, hresult, -, -, hok⟩ := (publish_all_or_nothing .total fun _ => .default).2 s₀ s₁ s₂
    s₃ 0 Topic.prices [] [m₁, m₂, m₃] hreach₀ hcaller hlock htrace (by simp [ha₁, ha₂, ha₃]) hsettle
  rw [hreturned] at hresult
  have hcases : result = .ok () := by
    have := List.append_cancel_left hresult
    simpa using this.symm
  subst hcases
  obtain ⟨hcounter, hreached, -⟩ := hok rfl
  refine ⟨s₀, s₁, s₂, s₃, _, hreach₀, hlock, htrace, hsettle, ?_, hreached ⟨0⟩ hlive⟩
  rw [hcounter, if_pos rfl, horder]
  decide

end Cluster
end Pubsub
end TightbeamExt
