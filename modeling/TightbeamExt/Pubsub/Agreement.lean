import Mathlib.Data.List.Perm.Basic
import TightbeamExt.Base.Broadcast
import TightbeamExt.Pubsub.Density
import TightbeamExt.Pubsub.Publish

/-!
# The cluster is a total order broadcast

Whatever the nodes, the publishers and the quiescing calls do in whatever order, the
cluster does what one sequencer with one ledger per topic does.  A publish call that
passes its draining check is a submission; the first sink that accepts its frame
writes it to the ledger; a `register` joins a reader; a `deliver` hands one entry to
every subscriber of the topic on its node.

The ledger is not part of the state.  It is what the run showed so far, and the
relation between a cluster and a ledger says how far each node has come.

## Main definitions

* `Cluster.seen b` — what a move shows: a submission, or the stamp and payload the
  first sink accepts.
* `Cluster.due s i t` — the newest entry is still on its way to the node.
* `Explains b s σ` — how a cluster stands to a sequencer.

## Main results

* `follows` — **every step is matched by steps of the sequencer**.
* `total_order_broadcast` — **all subscribers of a topic were handed pieces of one
  ledger**, which was submitted in full.
* `handed_between` — **a subscriber of a live node is handed exactly what is
  sequenced**.
-/

namespace TightbeamExt
namespace Pubsub

open Transition Broadcast

/-- The frame of an entry. -/
def entryFrame (t : Topic) (e : ℕ × Octets) : Frame := ⟨utf8 t.name, e.1, e.2⟩

theorem entryFrame_of_updateFrame {b : FrameBuilder} {t : Topic} {order : ℕ} {payload : Octets}
    {f : Frame} (h : updateFrame b t order payload = .ok f) : f = entryFrame t (order, payload) :=
  build_eq_ok h

/-! ### A node that hands nothing out -/

/-- Nobody came and nothing was handed out. -/
structure Node.Quiet (n n' : Node) : Prop where
  /-- The subscribers left were there. -/
  subscribers : ∀ id sub,
    n'.state.subscribers.lookup id = some sub → n.state.subscribers.lookup id = some sub
  /-- No number is taken back. -/
  next : n.nextSubscriber ≤ n'.nextSubscriber
  /-- The lanes were handed nothing. -/
  handed : ∀ id, (n'.cells id).history.handed = (n.cells id).history.handed
  /-- The flag is never taken back. -/
  draining : n'.draining = false → n.draining = false

namespace Node

variable {b : FrameBuilder} {o : RegistryOptions} {n n' : Node}

theorem Quiet.refl (n : Node) : Quiet n n := ⟨fun _ _ h => h, le_rfl, fun _ => rfl, id⟩

theorem Calm.quiet (h : Calm n n') : Quiet n n' where
  subscribers := h.subscribers
  next := h.next.ge
  handed := fun id => (h.logs id).handed
  draining := by rw [h.draining]; exact id

/-- The end frames are not updates. -/
theorem quiet_finishAll (ends : List EndSignal) : Quiet n (n.finishAll ends) where
  subscribers := by rw [subscribers_finishAll]; exact fun _ _ h => h
  next := le_rfl
  handed := by
    intro id
    -- over the end frames, each one swept over its members
    have hloop : ∀ (ends : List EndSignal) (cells : SubscriberId → Cell),
        ((finishCells n.state ends cells id).history.handed) = (cells id).history.handed := by
      intro ends
      induction ends with
      | nil => intro cells; rfl
      | cons e ends ih =>
        intro cells
        refine (ih _).trans ?_
        refine sweep_congr (fun c => c.history.handed) ?_ e.members cells id
        intro k c
        rw [finishTo]
        split
        · exact Cell.handed_finish _ _
        · rfl
    exact hloop ends n.cells
  draining := id

/-- A step of a node hands nothing out, takes a subscriber in, or delivers. -/
theorem quiet_or (h : Inv o n) {a : NodeAction} (hst : n.step b o a = some n') :
    Quiet n n' ∨
      (∃ c t, Unlocks n n' ∧
        n'.state.subscribers = n.state.subscribers.insert ⟨n.nextSubscriber⟩ ⟨t, c⟩ ∧
        n'.nextSubscriber = n.nextSubscriber + 1 ∧
        (∀ id, id ≠ ⟨n.nextSubscriber⟩ → n'.cells id = n.cells id) ∧
        n'.cells ⟨n.nextSubscriber⟩ = Cell.new) ∨
      ∃ t order payload policy, a = .deliverBody t order payload policy := by
  cases step_effect h hst with
  | calm _ hc => exact .inl hc.quiet
  | refuse _ hc => exact .inl hc.quiet
  | register _ hu hsub hnext hcells hnew =>
    exact .inr (.inl ⟨_, _, hu, hsub, hnext, hcells, hnew⟩)
  | deliver => exact .inr (.inr ⟨_, _, _, _, rfl⟩)
  | swap hn => subst hn; exact .inl ⟨fun _ _ h => h, le_rfl, fun _ => rfl, fun h => by cases h⟩
  | snapshot _ _ hn => subst hn; exact .inl ⟨fun _ _ h => h, le_rfl, fun _ => rfl, id⟩
  | reserve _ _ hn => subst hn; exact .inl ⟨fun _ _ h => h, le_rfl, fun _ => rfl, id⟩
  | fail _ hn => subst hn; exact .inl ⟨fun _ _ h => h, le_rfl, fun _ => rfl, id⟩
  | finish _ _ hn => subst hn; exact .inl (quiet_finishAll _)

end Node

namespace Cluster

/-! ### What a run shows -/

/-- A publish call past its check is submitted; the first sink that accepts a frame
writes it to the ledger. -/
def seen (b : FrameBuilder) (m : Move Cluster ClusterAction) : List (Event Topic Octets) :=
  match m.action, m.before.publishing with
  | .publishCall i t payload, _ =>
      if (m.before.nodes i).draining then [] else [.submitted t payload]
  | .fanOut _, some p =>
      if p.tally.deliveredAny = false ∧ (delivery b p).isOk = true then
        [.sequenced p.topic p.order p.payload]
      else []
  | _, _ => []

/-- What the moves wrote to the ledger of a topic. -/
def ledger (b : FrameBuilder) (moves : List (Move Cluster ClusterAction)) (t : Topic) :
    List (ℕ × Octets) :=
  entriesOf t (moves.flatMap (seen b))

/-- What the moves submitted. -/
def submissions (b : FrameBuilder) (moves : List (Move Cluster ClusterAction)) :
    List (Topic × Octets) :=
  submissionsOf (moves.flatMap (seen b))

/-! ### How far a node has come -/

/-- The publish at work is not in the ledger yet. -/
def waiting (s : Cluster) : List (Topic × Octets) :=
  match s.publishing with
  | none => []
  | some p => if p.tally.deliveredAny then [] else [(p.topic, p.payload)]

/-- The highest stamp in the ledger of a topic is at most this. -/
def highest (s : Cluster) (t : Topic) : ℕ :=
  match s.publishing with
  | none => s.lastOrder t
  | some p => if p.topic = t ∧ p.tally.deliveredAny = true then p.order else s.lastOrder t

/-- One if the newest entry of the topic is still on its way to the node. -/
def due (s : Cluster) (i : NodeId) (t : Topic) : ℕ :=
  match s.publishing with
  | none => 0
  | some p => if p.topic = t ∧ p.tally.deliveredAny = true ∧ ¬ p.visited i then 1 else 0

/-- The node takes the update of the publish at work, or took every one so far. -/
def attends (s : Cluster) (i : NodeId) : Prop :=
  s.live i = true ∧
    ((s.nodes i).draining = false ∨ ∃ p, s.publishing = some p ∧ p.phase = .delivering i)

/-- The state of the sequencer. -/
abbrev Sequencer := Broadcast.State Topic Octets (NodeId × SubscriberId)

/-- The books of the sequencer. -/
structure Booked (s : Cluster) (σ : Sequencer) : Prop where
  /-- The callers wait, and the publish at work until a sink accepts it. -/
  pending : σ.pending.Perm (s.callers ++ s.waiting)
  /-- The ledger is stamped from the counters. -/
  stamped : ∀ t, ∀ e ∈ σ.ledger t, e.1 ≤ s.highest t
  /-- An accepted publish is the newest entry. -/
  current : ∀ p, s.publishing = some p → p.tally.deliveredAny = true →
    (σ.ledger p.topic).getLast? = some (p.order, p.payload)

/-- The readers of the sequencer. -/
structure Followed (s : Cluster) (σ : Sequencer) : Prop where
  /-- A reader is a subscriber that was created. -/
  known : ∀ i id r, σ.readers (i, id) = some r →
    i.val < s.next ∧ id.val < (s.nodes i).nextSubscriber
  /-- A lane was handed the log of its reader. -/
  handed : ∀ i id r, σ.readers (i, id) = some r →
    ((s.nodes i).cells id).history.handed = (σ.log r).map (entryFrame r.topic)
  /-- A subscriber is a reader of its topic. -/
  registered : ∀ i id t c, (s.nodes i).state.subscribers.lookup id = some ⟨t, c⟩ →
    ∃ r, σ.readers (i, id) = some r ∧ r.topic = t
  /-- On a node that takes updates it is abreast of the ledger, up to the entry on
  its way. -/
  abreast : ∀ i, s.attends i → ∀ id t c r,
    (s.nodes i).state.subscribers.lookup id = some ⟨t, c⟩ → σ.readers (i, id) = some r →
    r.pos + s.due i t = (σ.ledger t).length

/-- How a cluster stands to a sequencer. -/
structure Explains (s : Cluster) (σ : Sequencer) : Prop where
  /-- The ledgers are sorted and the readers on them. -/
  sound : Sound σ
  /-- The books. -/
  booked : Booked s σ
  /-- The readers. -/
  followed : Followed s σ

theorem explains_init : Explains init Broadcast.State.init where
  sound := sound_init
  booked := {
    pending := .nil
    stamped := by intro t e he; cases he
    current := by intro p hp; cases hp }
  followed := {
    known := by intro i id r hr; cases hr
    handed := by intro i id r hr; cases hr
    registered := by intro i id t c h; simp [init, Node.init, State.empty] at h
    abreast := by intro i _ id t c r h; simp [init, Node.init, State.empty] at h }

variable {b : FrameBuilder} {o : NodeId → RegistryOptions} {s s' : Cluster} {σ : Sequencer}

theorem due_of_idle (h : s.publishing = none) (i : NodeId) (t : Topic) : s.due i t = 0 := by
  simp [due, h]

theorem due_of_publishing {p : Publication} (h : s.publishing = some p) (i : NodeId) (t : Topic) :
    s.due i t = if p.topic = t ∧ p.tally.deliveredAny = true ∧ ¬ p.visited i then 1 else 0 := by
  simp [due, h]

/-! ### Steps that show nothing -/

/-- The publish at work goes on without an answer that counts. -/
structure Alike (p p' : Publication) : Prop where
  /-- The topic stays. -/
  topic : p'.topic = p.topic
  /-- So does the stamp. -/
  order : p'.order = p.order
  /-- So does the payload. -/
  payload : p'.payload = p.payload
  /-- No sink accepted. -/
  delivered : p'.tally.deliveredAny = p.tally.deliveredAny

/-- The books are read off the callers, the counters and the publish at work. -/
theorem Booked.alike (h : Booked s σ) {p p' : Publication} (hp : s.publishing = some p)
    (hp' : s'.publishing = some p') (hc : s'.callers = s.callers) (ho : s'.orders = s.orders)
    (ha : Alike p p') : Booked s' σ where
  pending := by
    have hw : s'.waiting = s.waiting := by
      simp only [waiting, hp, hp', ha.delivered, ha.topic, ha.payload]
    rw [hc, hw]
    exact h.pending
  stamped := by
    have hh : ∀ t, s'.highest t = s.highest t := by
      intro t
      simp only [highest, hp, hp', ha.delivered, ha.topic, ha.order, lastOrder, ho]
    intro t
    rw [hh]
    exact h.stamped t
  current := by
    intro q hq hdel
    rw [hp'] at hq
    cases hq
    rw [ha.topic, ha.order, ha.payload]
    exact h.current p hp (ha.delivered ▸ hdel)

/-- Callers, counters and publish stay. -/
theorem Booked.same (h : Booked s σ) (hp : s'.publishing = s.publishing)
    (hc : s'.callers = s.callers) (ho : s'.orders = s.orders) : Booked s' σ where
  pending := by
    have hw : s'.waiting = s.waiting := by simp only [waiting, hp]
    rw [hc, hw]
    exact h.pending
  stamped := by
    have hh : ∀ t, s'.highest t = s.highest t := fun t => by simp only [highest, hp, lastOrder, ho]
    intro t
    rw [hh]
    exact h.stamped t
  current := by rw [hp]; exact h.current

/-- No node hands anything out, and nothing becomes due or stops being so. -/
theorem Followed.quiet (h : Followed s σ) (hnext : s.next ≤ s'.next)
    (hnode : ∀ j, Node.Quiet (s.nodes j) (s'.nodes j) ∨
      s'.nodes j = Node.init ∧ s.next ≤ j.val)
    (hdue : ∀ j, s'.attends j → s'.nodes j ≠ Node.init →
      s.attends j ∧ ∀ t, s'.due j t = s.due j t) : Followed s' σ where
  known := by
    intro i id r hr
    obtain ⟨hi, hid⟩ := h.known i id r hr
    refine ⟨hi.trans_le hnext, ?_⟩
    rcases hnode i with hq | ⟨-, hnew⟩
    · exact hid.trans_le hq.next
    · omega
  handed := by
    intro i id r hr
    rcases hnode i with hq | ⟨-, hnew⟩
    · rw [hq.handed]
      exact h.handed i id r hr
    · have := (h.known i id r hr).1
      omega
  registered := by
    intro i id t c hid
    rcases hnode i with hq | ⟨hinit, -⟩
    · exact h.registered i id t c (hq.subscribers id _ hid)
    · rw [hinit] at hid
      simp [Node.init, State.empty] at hid
  abreast := by
    intro i hatt id t c r hid hr
    rcases hnode i with hq | ⟨hinit, -⟩
    · have hne : s'.nodes i ≠ Node.init := by
        intro heq
        rw [heq] at hid
        simp [Node.init, State.empty] at hid
      obtain ⟨hatt', hsame⟩ := hdue i hatt hne
      rw [hsame]
      exact h.abreast i hatt' id t c r (hq.subscribers id _ hid) hr
    · rw [hinit] at hid
      simp [Node.init, State.empty] at hid

theorem quiet_setNode {i : NodeId} {n : Node} (h : Node.Quiet (s.nodes i) n) (j : NodeId) :
    Node.Quiet (s.nodes j) ((s.setNode i n).nodes j) := by
  by_cases hj : j = i
  · subst hj
    rw [nodes_setNode_self]
    exact h
  · rw [nodes_setNode_of_ne hj]
    exact .refl _

/-- One node moves and hands nothing out. -/
theorem Followed.setNode (h : Followed s σ) {i : NodeId} {n : Node}
    (hquiet : Node.Quiet (s.nodes i) n) (orders : Table Topic ℕ) :
    Followed { s.setNode i n with orders := orders } σ := by
  refine h.quiet le_rfl (fun j => .inl (quiet_setNode hquiet j)) ?_
  rintro j ⟨hlive, hd⟩ -
  refine ⟨⟨hlive, ?_⟩, fun t => rfl⟩
  exact hd.imp (quiet_setNode hquiet j).draining id

theorem due_alike {p p' : Publication} (hp : s.publishing = some p) (hp' : s'.publishing = some p')
    (ha : Alike p p') {i : NodeId} (hv : p'.visited i ↔ p.visited i) (t : Topic) :
    s'.due i t = s.due i t := by
  rw [due_of_publishing hp, due_of_publishing hp', ha.topic, ha.delivered]
  simp only [hv]

/-- The next sink is entered: nobody gets behind the publish. -/
theorem visited_enter {p : Publication} {i : NodeId} {todo : List NodeId} (htodo : p.todo = i :: todo)
    (hphase : p.phase = .visiting) (j : NodeId) :
    ({ p with todo := todo, phase := .delivering i } : Publication).visited j ↔ p.visited j := by
  constructor
  · intro hv
    have hne : j ≠ i := by rintro rfl; exact hv.2 rfl
    exact Publication.visited_of_next htodo hphase hne hv
  · intro hv
    have hnot : j ∉ i :: todo := htodo ▸ hv.1
    rw [List.mem_cons, not_or] at hnot
    refine ⟨hnot.2, ?_⟩
    rintro hph
    cases hph
    exact hnot.1 rfl

/-- With the next sink off the list the others stay where they are. -/
theorem visited_skip {p p' : Publication} {i j : NodeId} (htodo : p.todo = i :: p'.todo)
    (hphase : p.phase = .visiting) (hphase' : p'.phase = .visiting) (hj : j ≠ i) :
    p'.visited j ↔ p.visited j :=
  ⟨Publication.visited_of_next htodo hphase hj, Publication.visited_next htodo hphase'⟩

/-- A node without a sink at work attends only while it is not draining. -/
theorem attends_of_visiting (h : s'.attends i) {p : Publication} (hp : s'.publishing = some p)
    (hphase : p.phase = .visiting) : s'.live i = true ∧ (s'.nodes i).draining = false := by
  obtain ⟨hlive, hd | ⟨q, hq, hqphase⟩⟩ := h
  · exact ⟨hlive, hd⟩
  · rw [hp] at hq
    cases hq
    rw [hphase] at hqphase
    cases hqphase

theorem explains_visit (h : Explains s σ) (hst : s.visit b o = some s')
    (hwf : WF b o s) : Explains s' σ := by
  obtain ⟨p, i, todo, hpub, htodo, hphase, hcase⟩ := visit_cases hst
  rcases hcase with ⟨hdead, rfl⟩ | ⟨hdrain, rfl⟩ | ⟨n, hlive, hn, rfl⟩
  · have ha : Alike p { p with todo := todo } := ⟨rfl, rfl, rfl, rfl⟩
    refine ⟨h.sound, h.booked.alike hpub rfl rfl rfl ha,
      h.followed.quiet le_rfl (fun j => .inl (.refl _)) ?_⟩
    intro j hj _
    obtain ⟨hl, hd⟩ := attends_of_visiting hj rfl hphase
    have hne : j ≠ i := by rintro rfl; exact absurd hl (by simp [hdead])
    exact ⟨⟨hl, .inl hd⟩, due_alike hpub rfl ha (visited_skip htodo hphase hphase hne)⟩
  · have ha : Alike p { p with todo := todo, tally := p.tally.record (.error .draining) } :=
      ⟨rfl, rfl, rfl, by simp [Tally.deliveredAny_record, Except.isOk, Except.toBool]⟩
    refine ⟨h.sound, h.booked.alike hpub rfl rfl rfl ha,
      h.followed.quiet le_rfl (fun j => .inl (.refl _)) ?_⟩
    intro j hj _
    obtain ⟨hl, hd⟩ := attends_of_visiting hj rfl hphase
    have hne : j ≠ i := by rintro rfl; exact absurd hd (by simp [hdrain])
    exact ⟨⟨hl, .inl hd⟩, due_alike hpub rfl ha (visited_skip htodo hphase hphase hne)⟩
  · have ha : Alike p { p with todo := todo, phase := .delivering i } := ⟨rfl, rfl, rfl, rfl⟩
    have hquiet : ∀ j, Node.Quiet (s.nodes j) ((s.setNode i n).nodes j) := by
      refine quiet_setNode ?_
      cases Node.step_effect (hwf.nodes i).1 hn with
      | calm _ hc => exact hc.quiet
    refine ⟨h.sound, h.booked.alike hpub rfl rfl rfl ha,
      h.followed.quiet le_rfl (fun j => .inl (hquiet j)) ?_⟩
    intro j hj _
    refine ⟨⟨hj.1, .inl ?_⟩, due_alike hpub rfl ha (visited_enter htodo hphase j)⟩
    rcases hj.2 with hd | ⟨q, hq, hqphase⟩
    · exact (hquiet j).draining hd
    · -- the sink is entered past its draining check
      cases hq
      cases hqphase
      cases Node.fires_of_step hn with
      | deliverCheck _ hd => exact hd

theorem explains_leave (h : Explains s σ) (hst : s.leave = some s') : Explains s' σ := by
  obtain ⟨p, i, hpub, hphase, -, rfl⟩ := leave_cases hst
  have ha : Alike p { p with phase := .visiting } := ⟨rfl, rfl, rfl, rfl⟩
  refine ⟨h.sound, h.booked.alike hpub rfl rfl rfl ha,
    h.followed.quiet le_rfl (fun j => .inl (.refl _)) ?_⟩
  intro j hj _
  obtain ⟨hl, hd⟩ := attends_of_visiting hj rfl rfl
  refine ⟨⟨hl, .inl hd⟩, due_alike hpub rfl ha ⟨?_, ?_⟩⟩
  · exact fun hv => ⟨hv.1, by rw [hphase]; exact fun hph => by cases hph⟩
  · exact fun hv => ⟨hv.1, fun hph => by cases hph⟩

theorem explains_attach (h : Explains s σ) (hpub : s.publishing = none) :
    Explains { s with
      nodes := Function.update s.nodes ⟨s.next⟩ Node.init
      live := Function.update s.live ⟨s.next⟩ true
      next := s.next + 1
      sinks := s.sinks.filter s.live ++ [⟨s.next⟩] } σ := by
  refine ⟨h.sound, h.booked.same rfl rfl rfl, h.followed.quiet (Nat.le_succ _) ?_ ?_⟩
  · intro j
    by_cases hj : j = ⟨s.next⟩
    · subst hj
      exact .inr ⟨Function.update_self _ _ _, le_rfl⟩
    · left
      simp only [Function.update_of_ne hj]
      exact .refl _
  · intro j hatt hne
    have hj : j ≠ ⟨s.next⟩ := by
      rintro rfl
      exact hne (Function.update_self _ _ _)
    refine ⟨?_, fun t => rfl⟩
    simpa only [attends, hpub, Function.update_of_ne hj] using hatt

theorem explains_dropNode (h : Explains s σ) (i : NodeId) :
    Explains { s with live := Function.update s.live i false } σ := by
  refine ⟨h.sound, h.booked.same rfl rfl rfl,
    h.followed.quiet le_rfl (fun j => .inl (.refl _)) ?_⟩
  intro j hatt _
  refine ⟨⟨?_, hatt.2⟩, fun t => rfl⟩
  by_cases hj : j = i
  · have := hatt.1
    simp [hj] at this
  · simpa [Function.update_of_ne hj] using hatt.1

theorem explains_publishLock (h : Explains s σ) {k : ℕ} (hst : s.publishLock k = some s') :
    Explains s' σ := by
  unfold publishLock at hst
  split at hst
  · next t payload hpub hk =>
    cases hst
    have hhigh : ∀ t', highest
        { s with
          callers := s.callers.eraseIdx k
          publishing :=
            some ⟨t, payload, saturatingSucc (s.lastOrder t), s.sinks, .visiting, .empty⟩ } t' =
        s.highest t' := by
      intro t'
      simp [highest, hpub, Tally.empty, lastOrder]
    refine ⟨h.sound, ⟨?_, ?_, ?_⟩, h.followed.quiet le_rfl (fun j => .inl (.refl _)) ?_⟩
    · -- the caller that took the lock is the one that waits
      refine h.booked.pending.trans ?_
      obtain ⟨hlt, hget⟩ := List.getElem?_eq_some_iff.mp hk
      have hperm := List.getElem_cons_eraseIdx_perm hlt
      rw [hget] at hperm
      simp only [waiting, hpub, Tally.empty, List.append_nil]
      refine hperm.symm.trans ?_
      exact (List.perm_append_singleton _ _).symm
    · intro t'
      rw [hhigh]
      exact h.booked.stamped t'
    · intro p hp hdel
      cases hp
      cases hdel
    · intro j hj _
      obtain ⟨hl, hd⟩ := attends_of_visiting hj rfl rfl
      refine ⟨⟨hl, .inl hd⟩, ?_⟩
      intro t'
      rw [due_of_idle hpub, due_of_publishing rfl, if_neg (by simp [Tally.empty])]
  · cases hst

theorem explains_reserve (h : Explains s σ) (hwf : WF b o s) {i : NodeId}
    (hg : s.Unsaturated (.reserve i)) (hst : s.reserve b o i = some s') : Explains s' σ := by
  unfold reserve at hst
  split at hst
  · next t hpub hlive hq =>
    rw [Option.map_eq_some_iff] at hst
    obtain ⟨n, hn, rfl⟩ := hst
    have hquiet : Node.Quiet (s.nodes i) n := by
      rcases Node.quiet_or (hwf.nodes i).1 hn with hquiet | ⟨c, t', -, -, hnext, -⟩ | ⟨_, _, _, _, ha⟩
      · exact hquiet
      · cases Node.fires_of_step hn <;> exact absurd hnext (by simp)
      · cases ha
    refine ⟨h.sound, ⟨h.booked.pending, ?_, h.booked.current⟩, h.followed.setNode hquiet _⟩
    intro t' e he
    refine (h.booked.stamped t' e he).trans ?_
    have hnext : saturatingSucc (s.lastOrder t) = s.lastOrder t + 1 :=
      saturatingSucc_of_lt (hg t (by simp [stamped, hq]))
    have hhigh : highest
        { s.setNode i n with orders := s.orders.insert t (saturatingSucc (s.lastOrder t)) } t' =
        if t' = t then s.lastOrder t + 1 else s.lastOrder t' := by
      rw [← hnext, ← lastOrder_insert]
      simp only [highest, setNode, hpub]
      rfl
    rw [hhigh]
    simp only [highest, hpub]
    split
    · next ht => rw [ht]; exact Nat.le_succ _
    · exact le_rfl
  · cases hst

/-! ### Steps the sequencer takes part in -/

/-- The step is matched. -/
def Matched (b : FrameBuilder) (σ : Sequencer) (m : Move Cluster ClusterAction) : Prop :=
  ∃ ls σ', Path Broadcast.Step σ ls σ' ∧ ls.flatMap Label.events = seen b m ∧ Explains m.after σ'

theorem Explains.silent {a : ClusterAction} (h : Explains s' σ) (hseen : seen b ⟨s, a, s'⟩ = []) :
    Matched b σ ⟨s, a, s'⟩ :=
  ⟨[], σ, .nil, hseen.symm, h⟩

theorem Explains.one {a : ClusterAction} {σ' : Sequencer} {l : Label Topic Octets (NodeId × SubscriberId)}
    (h : Explains s' σ') (hst : Broadcast.Step σ l σ') (hseen : seen b ⟨s, a, s'⟩ = l.events) :
    Matched b σ ⟨s, a, s'⟩ :=
  ⟨[l], σ', .single hst, by rw [List.flatMap_singleton, hseen], h⟩

/-- A caller passed its check: a submission. -/
theorem matched_publishCall (h : Explains s σ) {i : NodeId} {t : Topic} {payload : Octets}
    (hst : s.step b o (.publishCall i t payload) = some s') :
    Matched b σ ⟨s, .publishCall i t payload, s'⟩ := by
  simp only [step] at hst
  split at hst
  · cases hst
  · split at hst
    · next hdrain =>
      cases hst
      refine Explains.silent ?_ (by simp [seen, hdrain])
      exact ⟨h.sound, h.booked.same rfl rfl rfl,
        h.followed.quiet le_rfl (fun j => .inl (.refl _)) fun j hj _ => ⟨hj, fun t => rfl⟩⟩
    · next hdrain =>
      cases hst
      have hstep := Broadcast.Step.submit σ t payload
      refine Explains.one ?_ hstep (by simp [seen, hdrain, Label.events])
      refine ⟨h.sound.step hstep, ⟨?_, h.booked.stamped, h.booked.current⟩, ?_⟩
      · show (σ.pending ++ [(t, payload)]).Perm ((s.callers ++ [(t, payload)]) ++ s.waiting)
        refine (h.booked.pending.append_right _).trans ?_
        rw [List.append_assoc, List.append_assoc]
        exact List.perm_append_comm.append_left _
      · exact ⟨h.followed.known, h.followed.handed, h.followed.registered, h.followed.abreast⟩

/-- The entry on its way is in the ledger. -/
theorem Booked.due_le (h : Booked s σ) (i : NodeId) (t : Topic) : s.due i t ≤ (σ.ledger t).length := by
  cases hpub : s.publishing with
  | none => rw [due_of_idle hpub]; exact Nat.zero_le _
  | some p =>
    rw [due_of_publishing hpub]
    split
    · next hin =>
      have hlast := h.current p hpub hin.2.1
      rw [hin.1] at hlast
      exact List.length_pos_iff.mpr fun hnil => by rw [hnil] at hlast; cases hlast
    · exact Nat.zero_le _

theorem due_le_one (s : Cluster) (i : NodeId) (t : Topic) : s.due i t ≤ 1 := by
  unfold due
  split
  · exact Nat.zero_le _
  · split <;> omega

/-- A subscriber comes: a reader joins below the entry on its way. -/
theorem matched_register (h : Explains s σ) {i : NodeId} {x : NodeAction} {n : Node}
    {t : Topic} {c : ConnectionId} (hu : Node.Unlocks (s.nodes i) n)
    (hsub : n.state.subscribers =
      (s.nodes i).state.subscribers.insert ⟨(s.nodes i).nextSubscriber⟩ ⟨t, c⟩)
    (hnext : n.nextSubscriber = (s.nodes i).nextSubscriber + 1)
    (hcells : ∀ id, id ≠ ⟨(s.nodes i).nextSubscriber⟩ → n.cells id = (s.nodes i).cells id)
    (hnew : n.cells ⟨(s.nodes i).nextSubscriber⟩ = Cell.new) (hi : i.val < s.next) :
    Matched b σ ⟨s, .node i x, s.setNode i n⟩ := by
  have hfresh : σ.readers (i, ⟨(s.nodes i).nextSubscriber⟩) = none := by
    cases hr : σ.readers (i, ⟨(s.nodes i).nextSubscriber⟩) with
    | none => rfl
    | some r => exact absurd (h.followed.known i _ r hr).2 (lt_irrefl _)
  have hdue := h.booked.due_le i t
  have hone := due_le_one s i t
  have hstep := Broadcast.Step.join hfresh (k := (σ.ledger t).length - s.due i t)
    (t := t) (Nat.sub_le _ _) (by omega)
  refine Explains.one ?_ hstep rfl
  -- the new reader, or one that was there with its lane and its subscription
  have hold : ∀ j id, (j = i ∧ id = ⟨(s.nodes i).nextSubscriber⟩) ∨
      ((j, id) ≠ (i, (⟨(s.nodes i).nextSubscriber⟩ : SubscriberId)) ∧
        ((s.setNode i n).nodes j).cells id = (s.nodes j).cells id ∧
        ((s.setNode i n).nodes j).state.subscribers.lookup id =
          (s.nodes j).state.subscribers.lookup id ∧
        (s.nodes j).nextSubscriber ≤ ((s.setNode i n).nodes j).nextSubscriber) := by
    intro j id
    by_cases hj : j = i
    · subst hj
      rw [nodes_setNode_self]
      by_cases hid : id = ⟨(s.nodes j).nextSubscriber⟩
      · exact .inl ⟨rfl, hid⟩
      · refine .inr ⟨fun heq => hid (Prod.mk.inj heq).2, hcells id hid, ?_, by omega⟩
        rw [hsub, Table.lookup_insert_eq, if_neg hid]
    · rw [nodes_setNode_of_ne hj]
      exact .inr ⟨fun heq => hj (Prod.mk.inj heq).1, rfl, rfl, le_rfl⟩
  have hlookup : ((s.setNode i n).nodes i).state.subscribers.lookup ⟨(s.nodes i).nextSubscriber⟩ =
      some ⟨t, c⟩ := by
    rw [nodes_setNode_self, hsub, Table.lookup_insert_eq, if_pos rfl]
  have hbooks : Booked (s.setNode i n) σ := h.booked.same rfl rfl rfl
  refine ⟨h.sound.step hstep, ⟨hbooks.pending, hbooks.stamped, hbooks.current⟩, ?_, ?_, ?_, ?_⟩
  · intro j id r hr
    rcases hold j id with ⟨rfl, rfl⟩ | ⟨hne, -, -, hle⟩
    · refine ⟨hi, ?_⟩
      show _ < ((s.setNode j n).nodes j).nextSubscriber
      rw [nodes_setNode_self, hnext]
      exact Nat.lt_succ_self _
    · obtain ⟨hj, hid⟩ := h.followed.known j id r ((Function.update_of_ne hne _ _).symm.trans hr)
      exact ⟨hj, hid.trans_le hle⟩
  · intro j id r hr
    rcases hold j id with ⟨rfl, rfl⟩ | ⟨hne, hcell, -, -⟩
    · have hself := (Function.update_self _ _ _).symm.trans hr
      cases hself
      show (((s.setNode j n).nodes j).cells _).history.handed = _
      rw [nodes_setNode_self, hnew]
      show [] = ((((σ.ledger t).take _).drop _).map _ : List Frame)
      rw [List.drop_take_self, List.map_nil]
    · show (((s.setNode i n).nodes j).cells id).history.handed = _
      rw [hcell]
      exact h.followed.handed j id r ((Function.update_of_ne hne _ _).symm.trans hr)
  · intro j id t' c' hid
    rcases hold j id with ⟨rfl, rfl⟩ | ⟨hne, -, hlook, -⟩
    · cases hlookup.symm.trans hid
      exact ⟨_, Function.update_self _ _ _, rfl⟩
    · obtain ⟨r, hr, ht⟩ := h.followed.registered j id t' c' (hlook.symm.trans hid)
      exact ⟨r, (Function.update_of_ne hne _ _).trans hr, ht⟩
  · intro j hatt id t' c' r hid hr
    rcases hold j id with ⟨rfl, rfl⟩ | ⟨hne, -, hlook, -⟩
    · have hself := (Function.update_self _ _ _).symm.trans hr
      cases hself
      cases hlookup.symm.trans hid
      show (σ.ledger t).length - s.due j t + s.due j t = (σ.ledger t).length
      exact Nat.sub_add_cancel hdue
    · refine h.followed.abreast j ⟨hatt.1, ?_⟩ id t' c' r (hlook.symm.trans hid)
        ((Function.update_of_ne hne _ _).symm.trans hr)
      refine hatt.2.imp (fun hd => ?_) fun hp => hp
      by_cases hj : j = i
      · subst hj
        rw [nodes_setNode_self, hu.draining] at hd
        exact hd
      · rwa [nodes_setNode_of_ne hj] at hd

/-- Everybody is behind a publish that has no sink left. -/
theorem due_of_visited {p : Publication} (hpub : s.publishing = some p) (htodo : p.todo = [])
    (hphase : p.phase = .visiting) (i : NodeId) (t : Topic) : s.due i t = 0 := by
  rw [due_of_publishing hpub, if_neg]
  rintro ⟨-, -, hv⟩
  refine hv ⟨?_, ?_⟩
  · rw [htodo]
    exact List.not_mem_nil
  · rw [hphase]
    exact fun hph => by cases hph

/-- What `settle` leaves: no publish at work, and counters that cover the ledger. -/
theorem settled (hwf : WF b o s) (hst : s.settle = some s') :
    ∃ p, s.publishing = some p ∧ p.todo = [] ∧ p.phase = .visiting ∧ s'.publishing = none ∧
      s'.callers = s.callers ∧ s'.nodes = s.nodes ∧ s'.live = s.live ∧ s'.next = s.next ∧
      ∀ t, s.highest t ≤ s'.highest t := by
  obtain ⟨p, hpub, htodo, hphase, rfl⟩ := settle_cases hst
  refine ⟨p, hpub, htodo, hphase, rfl, rfl, rfl, rfl, rfl, ?_⟩
  intro t
  have horder := (hwf.publishing p hpub).order
  simp only [highest, hpub, lastOrder]
  cases hc : p.tally.commits with
  | true =>
    rw [if_pos rfl, lastOrder_insert]
    split
    · next hin => rw [if_pos hin.1.symm]
    · split
      · next ht =>
        rw [ht, horder]
        exact Nat.le_succ _
      · exact le_rfl
  | false =>
    have hdel : p.tally.deliveredAny = false := by
      simp only [Tally.commits, Bool.or_eq_false_iff] at hc
      exact hc.1
    simp [hdel]

/-- The publish returns: its message is in the ledger, or it is given up. -/
theorem matched_settle (h : Explains s σ) (hwf : WF b o s) (hst : s.settle = some s') :
    Matched b σ ⟨s, .settle, s'⟩ := by
  obtain ⟨p, hpub, htodo, hphase, hpub', hcallers, hnodes, hlive, hnext, hhigh⟩ := settled hwf hst
  have hfollowed : Followed s' σ := by
    refine h.followed.quiet hnext.ge (fun j => .inl (by rw [hnodes]; exact .refl _)) ?_
    rintro j ⟨hl, hd | ⟨q, hq, -⟩⟩ -
    · rw [hlive] at hl
      rw [hnodes] at hd
      refine ⟨⟨hl, .inl hd⟩, fun t => ?_⟩
      rw [due_of_idle hpub', due_of_visited hpub htodo hphase]
    · rw [hpub'] at hq
      cases hq
  have hstamped : ∀ t, ∀ e ∈ σ.ledger t, e.1 ≤ s'.highest t := fun t e he =>
    (h.booked.stamped t e he).trans (hhigh t)
  have hcurrent : ∀ q, s'.publishing = some q → q.tally.deliveredAny = true →
      (σ.ledger q.topic).getLast? = some (q.order, q.payload) := by
    intro q hq
    rw [hpub'] at hq
    cases hq
  have hpending := h.booked.pending
  cases hdel : p.tally.deliveredAny with
  | true =>
    refine Explains.silent ⟨h.sound, ⟨?_, hstamped, hcurrent⟩, hfollowed⟩ rfl
    simpa [waiting, hpub, hpub', hdel, hcallers] using hpending
  | false =>
    have hwait : s.waiting = [(p.topic, p.payload)] := by simp [waiting, hpub, hdel]
    rw [hwait] at hpending
    have hmem : (p.topic, p.payload) ∈ σ.pending :=
      hpending.mem_iff.mpr (List.mem_append_right _ List.mem_cons_self)
    have hstep := Broadcast.Step.withdraw hmem
    refine Explains.one ⟨h.sound.step hstep, ⟨?_, hstamped, hcurrent⟩,
      ⟨hfollowed.known, hfollowed.handed, hfollowed.registered, hfollowed.abreast⟩⟩ hstep rfl
    have hwait' : s'.waiting = [] := by simp [waiting, hpub']
    rw [hwait', hcallers, List.append_nil]
    exact State.pending_giveUp hpending

/-! ### The fan-out -/

/-- The ledger once a sink accepted the publish at work. -/
structure Written (s : Cluster) (p : Publication) (σ σ₁ : Sequencer) : Prop where
  /-- No reader moved. -/
  readers : σ₁.readers = σ.readers
  /-- Only callers are left to wait. -/
  pending : σ₁.pending.Perm s.callers
  /-- The publish is the newest entry. -/
  last : (σ₁.ledger p.topic).getLast? = some (p.order, p.payload)
  /-- It has the highest stamp. -/
  stamped : ∀ t, ∀ e ∈ σ₁.ledger t, e.1 ≤ if p.topic = t then p.order else s.lastOrder t
  /-- Other topics are not touched. -/
  other : ∀ t, t ≠ p.topic → σ₁.ledger t = σ.ledger t
  /-- Nothing is taken out. -/
  grown : ∀ t, σ.ledger t <+: σ₁.ledger t
  /-- The first sink wrote the entry. -/
  length : (σ₁.ledger p.topic).length =
    (σ.ledger p.topic).length + if p.tally.deliveredAny then 0 else 1

/-- The first sink that accepts writes the entry, the others find it there. -/
theorem exists_written (h : Explains s σ) {p : Publication} (hpub : s.publishing = some p)
    (hp : Publishing b s p) (hok : (delivery b p).isOk = true)
    (policy : SubscriberId → DeliveryPolicy) (s' : Cluster) :
    ∃ ls σ₁, Path Broadcast.Step σ ls σ₁ ∧
      ls.flatMap Label.events = seen b ⟨s, .fanOut policy, s'⟩ ∧ Sound σ₁ ∧ Written s p σ σ₁ := by
  have horder := hp.order
  have hstamped : ∀ t, ∀ e ∈ σ.ledger t, e.1 ≤ if p.topic = t then p.order else s.lastOrder t := by
    intro t e he
    refine (h.booked.stamped t e he).trans ?_
    simp only [highest, hpub]
    by_cases ht : p.topic = t
    · subst ht
      rw [if_pos rfl]
      split
      · exact le_rfl
      · omega
    · rw [if_neg ht, if_neg fun hin => ht hin.1]
  have hpending := h.booked.pending
  cases hdel : p.tally.deliveredAny with
  | true =>
    refine ⟨[], σ, .nil, by simp [seen, hpub, hdel], h.sound, ?_⟩
    exact {
      readers := rfl
      pending := by simpa [waiting, hpub, hdel] using hpending
      last := h.booked.current p hpub hdel
      stamped := hstamped
      other := fun _ _ => rfl
      grown := fun _ => List.prefix_refl _
      length := by simp [hdel] }
  | false =>
    have hwait : s.waiting = [(p.topic, p.payload)] := by simp [waiting, hpub, hdel]
    rw [hwait] at hpending
    have hmem : (p.topic, p.payload) ∈ σ.pending :=
      hpending.mem_iff.mpr (List.mem_append_right _ List.mem_cons_self)
    have habove : ∀ e ∈ σ.ledger p.topic, e.1 < p.order := by
      intro e he
      have := h.booked.stamped _ e he
      simp only [highest, hpub, hdel, Bool.false_eq_true, and_false, if_false] at this
      omega
    have hstep := Broadcast.Step.sequence hmem habove
    have hledger := State.ledger_write σ p.topic
    refine ⟨_, _, .single hstep, by simp [seen, hpub, hdel, hok, Label.events],
      h.sound.step hstep, ?_⟩
    exact {
      readers := rfl
      pending := State.pending_write hpending
      last := by rw [hledger, if_pos rfl, List.getLast?_concat]
      stamped := by
        intro t e he
        rw [hledger] at he
        split at he
        · next ht =>
          rw [List.mem_append, List.mem_singleton] at he
          rcases he with he | rfl
          · exact hstamped t e he
          · rw [if_pos ht.symm]
        · exact hstamped t e he
      other := fun t ht => by rw [hledger, if_neg ht]
      grown := by
        intro t
        rw [hledger]
        split
        · exact List.prefix_append _ _
        · exact List.prefix_refl _
      length := by
        rw [hledger, if_pos rfl, List.length_append]
        simp [hdel] }

/-- The readers that are subscribers of the topic on the node. -/
def audience (s : Cluster) (i : NodeId) (t : Topic) (x : NodeId × SubscriberId) : Bool :=
  decide (x.1 = i) &&
    match (s.nodes i).state.subscribers.lookup x.2 with
    | none => false
    | some sub => decide (sub.topic = t)

theorem audience_iff {i j : NodeId} {t : Topic} {id : SubscriberId} :
    s.audience i t (j, id) = true ↔
      j = i ∧ ∃ c, (s.nodes i).state.subscribers.lookup id = some ⟨t, c⟩ := by
  rw [audience, Bool.and_eq_true, decide_eq_true_eq]
  refine and_congr_right fun _ => ?_
  cases hid : (s.nodes i).state.subscribers.lookup id with
  | none => simp
  | some sub =>
    obtain ⟨t', c⟩ := sub
    simp

/-- The sink at work is behind nothing yet. -/
theorem due_of_delivering {p : Publication} {i : NodeId} (hpub : s.publishing = some p)
    (hphase : p.phase = .delivering i) :
    s.due i p.topic = if p.tally.deliveredAny then 1 else 0 := by
  rw [due_of_publishing hpub]
  have hv : ¬ p.visited i := fun hv => hv.2 hphase
  simp [hv]

/-- On the node at work every subscriber of the topic is one entry short. -/
theorem short_of_written (h : Explains s σ) {p : Publication} {i : NodeId}
    (hpub : s.publishing = some p) (hp : Publishing b s p) (hphase : p.phase = .delivering i)
    {σ₁ : Sequencer} (hw : Written s p σ σ₁) {id : SubscriberId} {c : ConnectionId}
    (hid : (s.nodes i).state.subscribers.lookup id = some ⟨p.topic, c⟩) :
    ∃ r, σ.readers (i, id) = some r ∧ r.topic = p.topic ∧
      r.pos + 1 = (σ₁.ledger p.topic).length := by
  obtain ⟨r, hr, ht⟩ := h.followed.registered i id _ c hid
  have hatt : s.attends i := ⟨hp.kept i hphase, .inr ⟨p, hpub, hphase⟩⟩
  have hpos := h.followed.abreast i hatt id _ c r hid hr
  rw [due_of_delivering hpub hphase] at hpos
  refine ⟨r, hr, ht, ?_⟩
  rw [hw.length, ← hpos]
  cases p.tally.deliveredAny <;> simp

/-- The cluster behind the fan-out at one sink. -/
def afterFanOut (b : FrameBuilder) (s : Cluster) (p : Publication) (i : NodeId) (n : Node) : Cluster :=
  { s.setNode i n with
    publishing := some { p with
      phase := .disconnecting i
      tally := p.tally.record (delivery b p) } }

/-- The accepted update is on its way to the sinks left. -/
theorem due_afterFanOut {p : Publication} {n : Node} (i : NodeId)
    (hok : (delivery b p).isOk = true) (j : NodeId) (t : Topic) :
    (afterFanOut b s p i n).due j t = if p.topic = t ∧ j ∈ p.todo then 1 else 0 := by
  have hv : ({ p with
      phase := .disconnecting i
      tally := p.tally.record (delivery b p) } : Publication).visited j ↔ j ∉ p.todo :=
    ⟨fun hv => hv.1, fun hj => ⟨hj, fun hph => by cases hph⟩⟩
  refine (due_of_publishing rfl j t).trans ?_
  simp only [hv, Tally.deliveredAny_record, hok, Bool.or_true, true_and, not_not]

/-- Off the node at work: who is behind the publish is abreast of its entry. -/
theorem abreast_elsewhere {p : Publication} {i j : NodeId} {t : Topic} {pos : ℕ} {σ₁ : Sequencer}
    (hpub : s.publishing = some p) (hp : Publishing b s p) (hphase : p.phase = .delivering i)
    (hw : Written s p σ σ₁) (hok : (delivery b p).isOk = true) (hj : j ≠ i)
    (hlive : s.live j = true) (hd : (s.nodes j).draining = false)
    (hpos : pos + s.due j t = (σ.ledger t).length) :
    pos + (if p.topic = t ∧ j ∈ p.todo then 1 else 0) = (σ₁.ledger t).length := by
  rw [due_of_publishing hpub] at hpos
  by_cases ht : p.topic = t
  · subst ht
    have hv : p.visited j ↔ j ∉ p.todo := by
      refine ⟨fun hv => hv.1, fun hnot => ⟨hnot, ?_⟩⟩
      rw [hphase]
      exact fun hph => by cases hph; exact hj rfl
    rw [hw.length, ← hpos]
    cases hdel : p.tally.deliveredAny with
    | true => simp [hv]
    | false =>
      -- a sink that takes updates and is behind the publish has accepted it
      have hleft : j ∈ p.todo := by
        by_contra hnot
        rw [hp.fanned j hlive hd (hv.mpr hnot) hok] at hdel
        cases hdel
      simp [hleft]
  · rw [if_neg fun hin => ht hin.1] at hpos ⊢
    rw [hw.other t (Ne.symm ht)]
    exact hpos

/-- A frame that does not build reaches nobody. -/
theorem explains_refused (h : Explains s σ) {p : Publication} {i : NodeId} {n : Node}
    (hpub : s.publishing = some p) (hp : Publishing b s p)
    (hcalm : Node.Calm (s.nodes i) n) (hno : (delivery b p).isOk = false) :
    Explains (afterFanOut b s p i n) σ := by
  have hdel : p.tally.deliveredAny = false := by
    by_contra hd
    have := hp.accepted (by simpa using hd)
    rw [hno] at this
    cases this
  have ha : Alike p { p with
      phase := .disconnecting i
      tally := p.tally.record (delivery b p) } :=
    ⟨rfl, rfl, rfl, by rw [Tally.deliveredAny_record, hno, Bool.or_false]⟩
  refine ⟨h.sound, h.booked.alike hpub rfl rfl rfl ha,
    h.followed.quiet le_rfl (fun j => .inl (quiet_setNode hcalm.quiet j)) ?_⟩
  rintro j ⟨hl, hd | ⟨q, hq, hqphase⟩⟩ -
  · refine ⟨⟨hl, .inl ((quiet_setNode hcalm.quiet j).draining hd)⟩, fun t => ?_⟩
    rw [due_of_publishing hpub, due_of_publishing (s := afterFanOut b s p i n) rfl, ha.delivered, hdel]
    simp
  · cases hq
    cases hqphase

/-- The lanes behind the fan-out: one entry more for the audience. -/
theorem handed_afterFanOut {p : Publication} {i : NodeId} {n : Node} {f : Frame}
    {policy : SubscriberId → DeliveryPolicy}
    (hf : updateFrame b p.topic p.order p.payload = .ok f)
    (hpush : ∀ id c, (s.nodes i).state.subscribers.lookup id = some ⟨p.topic, c⟩ →
      ∃ capacity, n.cells id = (((s.nodes i).cells id).push capacity (policy id) p.topic f).1)
    (hkeep : ∀ id, (∀ c, (s.nodes i).state.subscribers.lookup id ≠ some ⟨p.topic, c⟩) →
      n.cells id = (s.nodes i).cells id) (j : NodeId) (id : SubscriberId) :
    (((s.setNode i n).nodes j).cells id).history.handed =
      ((s.nodes j).cells id).history.handed ++
        if s.audience i p.topic (j, id) then [entryFrame p.topic (p.order, p.payload)] else [] := by
  cases hin : s.audience i p.topic (j, id) with
  | true =>
    obtain ⟨rfl, c, hc⟩ := audience_iff.mp hin
    obtain ⟨capacity, hcell⟩ := hpush id c hc
    rw [nodes_setNode_self, hcell, Cell.handed_push, entryFrame_of_updateFrame hf, if_pos rfl]
  | false =>
    rw [if_neg Bool.false_ne_true, List.append_nil]
    by_cases hj : j = i
    · subst hj
      rw [nodes_setNode_self, hkeep]
      intro c hc
      rw [audience_iff.mpr ⟨rfl, c, hc⟩] at hin
      cases hin
    · rw [nodes_setNode_of_ne hj]

/-- The readers behind the fan-out. -/
theorem readers_afterFanOut {p : Publication} {i : NodeId} {σ₁ : Sequencer} (hw : Written s p σ σ₁)
    {x : NodeId × SubscriberId} {r' : Reader Topic}
    (hr : (σ₁.handTo (s.audience i p.topic)).readers x = some r') :
    ∃ r, σ.readers x = some r ∧ r' = if s.audience i p.topic x then r.advance else r := by
  simp only [State.handTo, hw.readers] at hr
  cases hin : s.audience i p.topic x with
  | true =>
    rw [hin, if_pos rfl, Option.map_eq_some_iff] at hr
    obtain ⟨r, hr, rfl⟩ := hr
    exact ⟨r, hr, rfl⟩
  | false =>
    rw [hin, if_neg Bool.false_ne_true] at hr
    exact ⟨r', hr, rfl⟩

theorem followed_afterFanOut (h : Explains s σ) {p : Publication} {i : NodeId} {n : Node} {f : Frame}
    {policy : SubscriberId → DeliveryPolicy} {σ₁ : Sequencer} (hpub : s.publishing = some p)
    (hp : Publishing b s p) (hphase : p.phase = .delivering i) (hw : Written s p σ σ₁)
    (hf : updateFrame b p.topic p.order p.payload = .ok f)
    (hu : Node.Unlocks (s.nodes i) n)
    (hsub : n.state.subscribers = (s.nodes i).state.subscribers)
    (hnext : n.nextSubscriber = (s.nodes i).nextSubscriber)
    (hpush : ∀ id c, (s.nodes i).state.subscribers.lookup id = some ⟨p.topic, c⟩ →
      ∃ capacity, n.cells id = (((s.nodes i).cells id).push capacity (policy id) p.topic f).1)
    (hkeep : ∀ id, (∀ c, (s.nodes i).state.subscribers.lookup id ≠ some ⟨p.topic, c⟩) →
      n.cells id = (s.nodes i).cells id) :
    Followed (afterFanOut b s p i n) (σ₁.handTo (s.audience i p.topic)) := by
  have hok : (delivery b p).isOk = true := by simp [delivery, hf, Except.isOk, Except.toBool]
  -- maps, counters and flags are as before on every node
  have hstay : ∀ j, ((s.setNode i n).nodes j).state.subscribers = (s.nodes j).state.subscribers ∧
      ((s.setNode i n).nodes j).nextSubscriber = (s.nodes j).nextSubscriber ∧
      ((s.setNode i n).nodes j).draining = (s.nodes j).draining := by
    intro j
    by_cases hj : j = i
    · subst hj
      rw [nodes_setNode_self]
      exact ⟨hsub, hnext, hu.draining⟩
    · rw [nodes_setNode_of_ne hj]
      exact ⟨rfl, rfl, rfl⟩
  refine ⟨?_, ?_, ?_, ?_⟩
  · intro j id r' hr'
    obtain ⟨r, hr, -⟩ := readers_afterFanOut hw hr'
    obtain ⟨hj, hid⟩ := h.followed.known j id r hr
    exact ⟨hj, hid.trans_eq (hstay j).2.1.symm⟩
  · intro j id r' hr'
    obtain ⟨r, hr, rfl⟩ := readers_afterFanOut hw hr'
    have hlog : σ₁.log r = σ.log r := log_of_grown (hw.grown _) (h.sound.written _ r hr)
    refine (handed_afterFanOut hf hpush hkeep j id).trans ?_
    rw [h.followed.handed j id r hr]
    cases hin : s.audience i p.topic (j, id) with
    | true =>
      -- the newest entry is the next one of the reader
      obtain ⟨rfl, c, hc⟩ := audience_iff.mp hin
      obtain ⟨r₀, hr₀, ht, hpos⟩ := short_of_written h hpub hp hphase hw hc
      rw [hr] at hr₀
      cases hr₀
      have hnewest : (σ₁.ledger r.topic)[r.pos]? = some (p.order, p.payload) := by
        rw [ht, ← hw.last, List.getLast?_eq_getElem?, ← hpos, Nat.add_sub_cancel]
      have hadvance : σ₁.log r.advance = σ₁.log r ++ [(p.order, p.payload)] :=
        log_advance (h.sound.started _ r hr) hnewest
      show _ = (σ₁.log r.advance).map (entryFrame r.topic)
      rw [if_pos rfl, hadvance, hlog, List.map_append, List.map_singleton, ht]
    | false =>
      show _ = (σ₁.log r).map (entryFrame r.topic)
      rw [if_neg Bool.false_ne_true, List.append_nil, hlog]
  · intro j id t c hid
    have hid' : (s.nodes j).state.subscribers.lookup id = some ⟨t, c⟩ := (hstay j).1 ▸ hid
    obtain ⟨r, hr, ht⟩ := h.followed.registered j id t c hid'
    refine ⟨if s.audience i p.topic (j, id) then r.advance else r, ?_, ?_⟩
    · simp only [State.handTo, hw.readers, hr]
      split <;> rfl
    · split
      · exact ht
      · exact ht
  · intro j hatt id t c r' hid hr'
    have hid' : (s.nodes j).state.subscribers.lookup id = some ⟨t, c⟩ := (hstay j).1 ▸ hid
    obtain ⟨r, hr, rfl⟩ := readers_afterFanOut hw hr'
    show _ = (σ₁.ledger t).length
    rw [due_afterFanOut i hok]
    by_cases hj : j = i
    · subst hj
      have hdone : (if p.topic = t ∧ j ∈ p.todo then 1 else 0) = 0 :=
        if_neg fun hin => hp.current j hphase hin.2
      rw [hdone, Nat.add_zero]
      by_cases ht : t = p.topic
      · subst ht
        obtain ⟨r₀, hr₀, -, hpos⟩ := short_of_written h hpub hp hphase hw hid'
        rw [hr] at hr₀
        cases hr₀
        rw [if_pos (audience_iff.mpr ⟨rfl, c, hid'⟩)]
        exact hpos
      · have hpos := h.followed.abreast j ⟨hp.kept j hphase, .inr ⟨p, hpub, hphase⟩⟩ id t c r hid' hr
        rw [due_of_publishing hpub, if_neg fun hin => ht hin.1.symm] at hpos
        have hout : ¬ s.audience j p.topic (j, id) = true := by
          intro hin
          obtain ⟨-, c', hc'⟩ := audience_iff.mp hin
          rw [hid'] at hc'
          cases hc'
          exact ht rfl
        rw [if_neg hout, hw.other t ht]
        exact hpos
    · have hd : (s.nodes j).draining = false := by
        rcases hatt.2 with hd | ⟨q, hq, hqphase⟩
        · exact (hstay j).2.2.symm.trans hd
        · cases hq
          cases hqphase
      have hpos := h.followed.abreast j ⟨hatt.1, .inl hd⟩ id t c r hid' hr
      have hout : ¬ s.audience i p.topic (j, id) = true := fun hin => hj (audience_iff.mp hin).1
      rw [if_neg hout]
      exact abreast_elsewhere hpub hp hphase hw hok hj hatt.1 hd hpos

/-- A sink answers: its audience is handed the entry, which the first one wrote. -/
theorem matched_fanOut (h : Explains s σ) (hwf : WF b o s) {policy : SubscriberId → DeliveryPolicy}
    (hst : s.fanOut b o policy = some s') : Matched b σ ⟨s, .fanOut policy, s'⟩ := by
  obtain ⟨p, i, n, hpub, hphase, hlock, hn, rfl⟩ := fanOut_cases hst
  have hp := hwf.publishing p hpub
  have hnode : (s.nodes i).step b (o i) (.deliverBody p.topic p.order p.payload policy) = some n := by
    rw [hn]
    simp [Node.step, hlock]
  cases Node.step_effect (hwf.nodes i).1 hnode with
  | calm ha => cases ha
  | refuse hcause hc =>
    have hno : (delivery b p).isOk = false := by
      simp [delivery, hcause, Except.isOk, Except.toBool]
    refine Explains.silent (explains_refused h hpub hp hc hno) ?_
    simp [seen, hpub, hno]
  | @deliver _ _ _ _ f _ hu hf hsub hnext hpush hkeep =>
    have hok : (delivery b p).isOk = true := by simp [delivery, hf, Except.isOk, Except.toBool]
    obtain ⟨ls, σ₁, hpath, hshown, hsound, hw⟩ :=
      exists_written h hpub hp hok policy (afterFanOut b s p i n)
    have hstep : Broadcast.Step σ₁ (.hand p.topic (s.audience i p.topic))
        (σ₁.handTo (s.audience i p.topic)) := by
      refine .hand ?_
      rintro ⟨j, id⟩ hin
      obtain ⟨rfl, c, hc⟩ := audience_iff.mp hin
      obtain ⟨r, hr, ht, hpos⟩ := short_of_written h hpub hp hphase hw hc
      refine ⟨r, by rw [hw.readers]; exact hr, ht, by omega⟩
    refine ⟨_, _, hpath.snoc hstep, ?_, hsound.step hstep, ?_, ?_⟩
    · rw [List.flatMap_append, hshown, List.flatMap_singleton]
      exact List.append_nil _
    · have hdel : (p.tally.record (delivery b p)).deliveredAny = true := by
        rw [Tally.deliveredAny_record, hok, Bool.or_true]
      refine ⟨?_, ?_, ?_⟩
      · show σ₁.pending.Perm (s.callers ++ (afterFanOut b s p i n).waiting)
        have hwait : (afterFanOut b s p i n).waiting = [] := if_pos hdel
        rw [hwait, List.append_nil]
        exact hw.pending
      · intro t e he
        refine (hw.stamped t e he).trans_eq ?_
        show _ = if p.topic = t ∧ (p.tally.record (delivery b p)).deliveredAny = true then p.order
          else s.lastOrder t
        simp only [hdel, and_true]
      · intro q hq _
        cases hq
        exact hw.last
    · exact followed_afterFanOut h hpub hp hphase hw hf hu hsub hnext hpush hkeep

/-- **Every step is matched.** -/
theorem matched_step {a : ClusterAction} (h : Explains s σ) (hwf : WF b o s) (hg : s.Unsaturated a)
    (hst : s.step b o a = some s') : Matched b σ ⟨s, a, s'⟩ := by
  cases a with
  | attach =>
    simp only [step] at hst
    split at hst
    · next hpub => cases hst; exact (explains_attach h hpub).silent rfl
    · cases hst
  | dropNode i =>
    simp only [step] at hst
    split at hst
    · cases hst
    · cases hst; exact (explains_dropNode h i).silent rfl
  | node i a =>
    simp only [step] at hst
    split at hst
    · next hown =>
      rw [Option.map_eq_some_iff] at hst
      obtain ⟨n, hn, rfl⟩ := hst
      rw [Bool.and_eq_true] at hown
      rcases Node.quiet_or (hwf.nodes i).1 hn with
        hquiet | ⟨c, t, hu, hsub, hnext, hcells, hnew⟩ | ⟨_, _, _, _, rfl⟩
      · have hbooks : Booked (s.setNode i n) σ := h.booked.same rfl rfl rfl
        exact Explains.silent ⟨h.sound, hbooks, h.followed.setNode hquiet s.orders⟩ rfl
      · exact matched_register h hu hsub hnext hcells hnew (hwf.known i (hwf.attached i hown.1))
      · cases hown.2
    · cases hst
  | publishCall i t payload => exact matched_publishCall h hst
  | publishLock k => exact (explains_publishLock h hst).silent rfl
  | visit => exact (explains_visit h hst hwf).silent rfl
  | fanOut policy => exact matched_fanOut h hwf hst
  | leave => exact (explains_leave h hst).silent rfl
  | settle => exact matched_settle h hwf hst
  | reserve i => exact (explains_reserve h hwf hg hst).silent rfl

theorem wf_of_reaches (h : Reaches (step b o) Unsaturated init s) : WF b o s :=
  h.invariant (wf_init b o) fun _ _ _ _ hi hg hst => wf_step hi hg hst

/-- **The cluster follows the sequencer.** -/
theorem follows (b : FrameBuilder) (o : NodeId → RegistryOptions) :
    Follows (step b o) Unsaturated init Broadcast.Step Explains (seen b) Label.events := by
  intro s a s' σ hreach h hg hst
  exact matched_step h (wf_of_reaches hreach) hg hst

/-! ### What subscribers are handed -/

/-- A node that is there was there, and took updates. -/
structure Stays (s s' : Cluster) (i : NodeId) : Prop where
  /-- No node number is taken back. -/
  next : s.next ≤ s'.next
  /-- A live node was live. -/
  live : s'.live i = true → s.live i = true
  /-- A node that takes updates took them. -/
  draining : (s'.nodes i).draining = false → (s.nodes i).draining = false

theorem Stays.refl (s : Cluster) (i : NodeId) : Stays s s i := ⟨le_rfl, id, id⟩

theorem Stays.trans {s'' : Cluster} {i : NodeId} (h : Stays s s' i) (h' : Stays s' s'' i) :
    Stays s s'' i :=
  ⟨h.next.trans h'.next, h.live ∘ h'.live, h.draining ∘ h'.draining⟩

theorem stays_step {a : ClusterAction} (hwf : WF b o s) (hst : s.step b o a = some s') {i : NodeId}
    (hi : i.val < s.next) : Stays s s' i := by
  cases a with
  | attach =>
    simp only [step] at hst
    split at hst
    · cases hst
      have hne : i ≠ ⟨s.next⟩ := by rintro rfl; exact lt_irrefl _ hi
      refine ⟨Nat.le_succ _, ?_, ?_⟩
      · simp only [Function.update_of_ne hne]
        exact id
      · simp only [Function.update_of_ne hne]
        exact id
    · cases hst
  | dropNode j =>
    simp only [step] at hst
    split at hst
    · cases hst
    · cases hst
      refine ⟨le_rfl, ?_, id⟩
      intro hl
      by_cases hij : i = j
      · simp [hij] at hl
      · simpa [Function.update_of_ne hij] using hl
  | node j a =>
    simp only [step] at hst
    split at hst
    · rw [Option.map_eq_some_iff] at hst
      obtain ⟨n, hn, rfl⟩ := hst
      exact ⟨le_rfl, id, hwf.setNode_draining hn⟩
    · cases hst
  | publishCall j t payload =>
    simp only [step] at hst
    split at hst
    · cases hst
    · split at hst
      · cases hst; exact ⟨le_rfl, id, id⟩
      · cases hst; exact ⟨le_rfl, id, id⟩
  | publishLock k =>
    simp only [step, publishLock] at hst
    split at hst
    · cases hst; exact ⟨le_rfl, id, id⟩
    · cases hst
  | visit =>
    obtain ⟨p, j, todo, -, -, -, ⟨-, rfl⟩ | ⟨-, rfl⟩ | ⟨n, -, hn, rfl⟩⟩ := visit_cases hst
    · exact ⟨le_rfl, id, id⟩
    · exact ⟨le_rfl, id, id⟩
    · exact ⟨le_rfl, id, hwf.setNode_draining hn⟩
  | fanOut policy =>
    simp only [step, fanOut] at hst
    split at hst
    · rw [Option.map_eq_some_iff] at hst
      obtain ⟨n, hn, rfl⟩ := hst
      exact ⟨le_rfl, id, hwf.setNode_draining hn⟩
    · cases hst
  | leave =>
    obtain ⟨p, j, -, -, -, rfl⟩ := leave_cases hst
    exact ⟨le_rfl, id, id⟩
  | settle =>
    obtain ⟨p, -, -, -, rfl⟩ := settle_cases hst
    exact ⟨le_rfl, id, id⟩
  | reserve j =>
    simp only [step, reserve] at hst
    split at hst
    · rw [Option.map_eq_some_iff] at hst
      obtain ⟨n, hn, rfl⟩ := hst
      exact ⟨le_rfl, id, hwf.setNode_draining hn⟩
    · cases hst

theorem stays_trace {moves : List (Move Cluster ClusterAction)}
    (hreach : Reaches (step b o) Unsaturated init s) (htrace : Trace (step b o) s moves s')
    (hg : ∀ m ∈ moves, m.before.Unsaturated m.action) {i : NodeId} (hi : i.val < s.next) :
    Stays s s' i := by
  induction htrace with
  | nil => exact .refl s i
  | @snoc moves s₁ s₂ a htrace hstep ih =>
    have hbefore : ∀ m ∈ moves, m.before.Unsaturated m.action := fun m hm =>
      hg m (List.mem_append_left _ hm)
    have hstays := ih hbefore
    have hwf := wf_of_reaches (htrace.reaches hreach hbefore)
    exact hstays.trans (stays_step hwf hstep (hi.trans_le hstays.next))

/-- An answer `Ok` of sinks that answered is an acceptance. -/
theorem delivered_of_answer {t : Tally} (h : t.answer = .ok ())
    (hheard : (t.deliveredAny || t.refused) = true) : t.deliveredAny = true := by
  obtain ⟨delivered, hard, soft⟩ := t
  cases delivered with
  | true => rfl
  | false => cases hard <;> cases soft <;> simp [Tally.answer, Tally.refused] at h hheard

/-- **All subscribers of a topic were handed pieces of one ledger.**  In every run
over unsaturated counters, with any nodes, publishers and quiescing calls in any
order: the stamps of a topic increase along its ledger; no message is in it more
often than it was submitted; what any subscriber of any node was handed is a
contiguous piece of it; between two publishes that piece is the end of the ledger if
the node is live and not draining; and a publish that returned `Ok` while some node
was live is in it. -/
theorem total_order_broadcast (b : FrameBuilder) (o : NodeId → RegistryOptions)
    (moves : List (Move Cluster ClusterAction)) (s : Cluster)
    (htrace : Trace (step b o) init moves s)
    (hg : ∀ m ∈ moves, m.before.Unsaturated m.action) :
    (∀ t, ((ledger b moves t).map Prod.fst).Pairwise (· < ·)) ∧
    (∀ t, ((ledger b moves t).map fun e => (t, e.2)).Subperm (submissions b moves)) ∧
    (∀ i id t c, (s.nodes i).state.subscribers.lookup id = some ⟨t, c⟩ →
      ((s.nodes i).cells id).history.handed <:+: (ledger b moves t).map (entryFrame t)) ∧
    (s.publishing = none → ∀ i, s.live i = true → (s.nodes i).draining = false → ∀ id t c,
      (s.nodes i).state.subscribers.lookup id = some ⟨t, c⟩ →
      ((s.nodes i).cells id).history.handed <:+ (ledger b moves t).map (entryFrame t)) ∧
    (∀ m ∈ moves, m.action = .settle → ∀ p, m.before.publishing = some p →
      p.tally.answer = .ok () → (∃ i, m.before.live i = true) →
      (p.order, p.payload) ∈ ledger b moves p.topic) := by
  obtain ⟨ls, σ, hpath, hshown, h⟩ := (follows b o).trace .start explains_init htrace hg
  have hledger : ∀ t, σ.ledger t = ledger b moves t := by
    intro t
    rw [ledger_of_path hpath, hshown]
    rfl
  refine ⟨?_, ?_, ?_, ?_, ?_⟩
  · intro t
    rw [← hledger]
    exact h.sound.sorted t
  · intro t
    rw [← hledger, submissions, ← hshown]
    exact subperm_of_path hpath t
  · intro i id t c hid
    obtain ⟨r, hr, rfl⟩ := h.followed.registered i id t c hid
    rw [h.followed.handed i id r hr, ← hledger]
    exact (log_piece σ r).map _
  · intro hidle i hlive hd id t c hid
    obtain ⟨r, hr, rfl⟩ := h.followed.registered i id t c hid
    have hpos := h.followed.abreast i ⟨hlive, .inl hd⟩ id _ c r hid hr
    rw [due_of_idle hidle, Nat.add_zero] at hpos
    rw [h.followed.handed i id r hr, ← hledger]
    exact (log_suffix hpos).map _
  · rintro m hm haction p hpub hanswer ⟨i, hlive⟩
    obtain ⟨earlier, later, rfl⟩ := List.append_of_mem hm
    obtain ⟨hbefore, hstep⟩ := htrace.cut
    have hg' : ∀ m ∈ earlier, m.before.Unsaturated m.action := fun m' hm' =>
      hg m' (List.mem_append_left _ hm')
    obtain ⟨ls', σ', hpath', hshown', h'⟩ := (follows b o).trace .start explains_init hbefore hg'
    -- a live sink has answered, so the `Ok` is an acceptance
    rw [haction] at hstep
    obtain ⟨q, hq, htodo, hphase, -⟩ := settle_cases hstep
    rw [hpub] at hq
    cases hq
    have hvis : p.visited i := by
      refine ⟨?_, ?_⟩
      · rw [htodo]
        exact List.not_mem_nil
      · rw [hphase]
        exact fun hph => by cases hph
    have hwf := wf_of_reaches (hbefore.reaches .start hg')
    have hdel := delivered_of_answer hanswer ((hwf.publishing p hpub).heard i hlive hvis)
    have hmem := List.mem_of_getLast? (h'.booked.current p hpub hdel)
    rw [ledger_of_path hpath', hshown'] at hmem
    rw [ledger, List.flatMap_append, entriesOf_append]
    exact List.mem_append_left _ hmem

/-- No publish at work, and a subscriber on a live node that takes updates. -/
def listening (s : Cluster) (i : NodeId) (id : SubscriberId) (sub : Subscriber) : Bool :=
  s.publishing.isNone && s.live i && !(s.nodes i).draining &&
    decide ((s.nodes i).state.subscribers.lookup id = some sub)

/-- Two nodes, a subscriber each, and a publish. -/
def broadcastRun : List ClusterAction :=
  joining ⟨0⟩ Topic.prices ++ joining ⟨1⟩ Topic.prices ++ publishingTwice ⟨0⟩ Topic.prices

/-- Both subscribers were handed the one entry of the ledger. -/
theorem one_ledger_two_nodes :
    ∃ moves s, Trace (step .total fun _ => .default) init moves s ∧
      moves.map Move.action = broadcastRun ∧
      ((s.nodes ⟨0⟩).cells ⟨1⟩).history.handed = [entryFrame Topic.prices (1, [])] ∧
      ((s.nodes ⟨1⟩).cells ⟨1⟩).history.handed <:+
        (ledger .total moves Topic.prices).map (entryFrame Topic.prices) := by
  have hrun : (runs (restrict (step .total fun _ => .default) Unsaturated) init broadcastRun).map
        (fun s => (s.listening ⟨1⟩ ⟨1⟩ ⟨Topic.prices, ⟨1⟩⟩,
          ((s.nodes ⟨0⟩).cells ⟨1⟩).history.handed)) =
      some (true, [entryFrame Topic.prices (1, [])]) := by
    decide +kernel
  obtain ⟨s, hrun, hobs⟩ := Option.map_eq_some_iff.mp hrun
  simp only [Prod.mk.injEq, listening, Bool.and_eq_true, Option.isNone_iff_eq_none,
    Bool.not_eq_true', decide_eq_true_eq] at hobs
  obtain ⟨⟨⟨⟨hidle, hlive⟩, hd⟩, hid⟩, hhanded⟩ := hobs
  obtain ⟨moves, htrace, hg, hactions⟩ := Trace.of_runs _ hrun
  refine ⟨moves, s, htrace, hactions, hhanded, ?_⟩
  exact (total_order_broadcast .total (fun _ => .default) moves s htrace hg).2.2.2.1 hidle ⟨1⟩ hlive
    hd ⟨1⟩ Topic.prices ⟨1⟩ hid

/-- **A subscriber of a live node is handed exactly what is sequenced.**  Between any
two states without a publish at work, a subscriber that is registered in both, on a
node that ends up live and not draining, was handed the entries the steps in between
wrote to the ledger of its topic, all of them, once and in order. -/
theorem handed_between (b : FrameBuilder) (o : NodeId → RegistryOptions) (s s' : Cluster)
    (moves : List (Move Cluster ClusterAction))
    (hreach : Reaches (step b o) Unsaturated init s) (htrace : Trace (step b o) s moves s')
    (hg : ∀ m ∈ moves, m.before.Unsaturated m.action) (hidle : s.publishing = none)
    (hidle' : s'.publishing = none) (i : NodeId) (hlive : s'.live i = true)
    (hd : (s'.nodes i).draining = false) (id : SubscriberId) (t : Topic) (c : ConnectionId)
    (hid : (s.nodes i).state.subscribers.lookup id = some ⟨t, c⟩)
    (hid' : (s'.nodes i).state.subscribers.lookup id = some ⟨t, c⟩) :
    ((s'.nodes i).cells id).history.handed =
      ((s.nodes i).cells id).history.handed ++ (ledger b moves t).map (entryFrame t) := by
  obtain ⟨-, σ, -, h⟩ := (follows b o).reached explains_init hreach
  obtain ⟨ls, σ', hpath, hshown, h'⟩ := (follows b o).trace hreach h htrace hg
  obtain ⟨r, hr, rfl⟩ := h.followed.registered i id t c hid
  obtain ⟨r', hr', ht⟩ := h'.followed.registered i id _ c hid'
  have hstays := stays_trace hreach htrace hg (h.followed.known i id r hr).1
  have hpos := h.followed.abreast i ⟨hstays.live hlive, .inl (hstays.draining hd)⟩ id _ c r hid hr
  have hpos' := h'.followed.abreast i ⟨hlive, .inl hd⟩ id _ c r' hid' hr'
  rw [due_of_idle hidle, Nat.add_zero] at hpos
  rw [due_of_idle hidle', Nat.add_zero] at hpos'
  rw [h.followed.handed i id r hr, h'.followed.handed i id r' hr',
    log_of_abreast h.sound hpath hr hr' hpos hpos', ht, List.map_append, ledger, hshown]

/-- A publish to a subscriber that was there: it is handed one entry more. -/
theorem handed_by_one_publish :
    ∃ s moves s', Reaches (step .total fun _ => .default) Unsaturated init s ∧
      Trace (step .total fun _ => .default) s moves s' ∧
      moves.map Move.action = publishingTwice ⟨0⟩ Topic.prices ∧
      ((s'.nodes ⟨1⟩).cells ⟨1⟩).history.handed =
        ((s.nodes ⟨1⟩).cells ⟨1⟩).history.handed ++
          (ledger .total moves Topic.prices).map (entryFrame Topic.prices) := by
  have hrun : (runs (restrict (step .total fun _ => .default) Unsaturated) init broadcastRun).map
        (fun s => (s.listening ⟨1⟩ ⟨1⟩ ⟨Topic.prices, ⟨1⟩⟩,
          (runs (restrict (step .total fun _ => .default) Unsaturated) s
            (publishingTwice ⟨0⟩ Topic.prices)).map
              fun s' => s'.listening ⟨1⟩ ⟨1⟩ ⟨Topic.prices, ⟨1⟩⟩)) =
      some (true, some true) := by
    decide +kernel
  obtain ⟨s, hrun, hobs⟩ := Option.map_eq_some_iff.mp hrun
  simp only [Prod.mk.injEq] at hobs
  obtain ⟨hbefore, hlater⟩ := hobs
  obtain ⟨s', hrun', hafter⟩ := Option.map_eq_some_iff.mp hlater
  simp only [listening, Bool.and_eq_true, Option.isNone_iff_eq_none, Bool.not_eq_true',
    decide_eq_true_eq] at hbefore hafter
  have hreach : Reaches (step .total fun _ => .default) Unsaturated init s :=
    Reaches.of_runs _ .start hrun
  obtain ⟨moves, htrace, hg, hactions⟩ := Trace.of_runs _ hrun'
  exact ⟨s, moves, s', hreach, htrace, hactions, handed_between .total (fun _ => .default) s s' moves
    hreach htrace hg hbefore.1.1.1 hafter.1.1.1 ⟨1⟩ hafter.1.1.2 hafter.1.2 ⟨1⟩ Topic.prices ⟨1⟩
    hbefore.2 hafter.2⟩

end Cluster
end Pubsub
end TightbeamExt
