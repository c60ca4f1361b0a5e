import TightbeamExt.Pubsub.Flushed

/-!
# Does an acknowledged subscription have a running drain task?

`register` answers a repeated subscription from the maps.  A drain task that loses its
link closes its subscriber and returns; it leaves the maps as they are, so the
subscription is still found there and acknowledged although nothing serves its queue
any more.

`Served` is the registry of `FlushSys` together with the drain tasks that were told that
their link is lost.

## Main definitions

* `acknowledged` — the id `register` answers with.
* `FlushSys.Serves` — the subscriber is open and its drain task is at work.
* `Served.lost` — whose drain task lost its link.

## Main results

* `alive_step` — a registered subscriber is closed by nobody but its own drain task.
* `register_serves_iff_link_kept` — **an acknowledged subscription is served exactly when
  the link of its drain task was never lost**.
* `register_acknowledges_dead_lane` — the run in which it is not.
-/

namespace TightbeamExt
namespace Pubsub

open Transition

/-! ### The property -/

/-- The task is in its loop, with its link. -/
def DrainPc.serving : DrainPc → Bool
  | .returned => false
  | pc => pc.linked

/-- The task has stored `closed`. -/
def DrainPc.gone : DrainPc → Bool
  | .wake => true
  | .returned => true
  | _ => false

/-- The answer ends the wait of the task with `LinkLost`. -/
def DrainPc.losesLink : DrainPc → LinkEvent → Bool
  | .emit _, .failed => true
  | .slotWait _, .slotLost => true
  | _, _ => false

/-- What `register`, past its check, answers: `Ok` with this id, or an error. -/
def acknowledged (o : RegistryOptions) (n : Node) : Option SubscriberId :=
  match n.lock with
  | .registering c t =>
      match n.state.register o.maxSubscriptionsPerConnection ⟨n.nextSubscriber⟩ c t with
      | .created _ => some ⟨n.nextSubscriber⟩
      | .existing id => some id
      | .refused _ => none
  | _ => none

/-- The subscriber is not closed and has a running drain task. -/
def FlushSys.Serves (s : FlushSys) (id : SubscriberId) : Prop :=
  (s.node.cells id).closed = false ∧ ∃ task ∈ s.tasks, task.1 = id ∧ task.2.serving = true

instance (s : FlushSys) (id : SubscriberId) : Decidable (s.Serves id) :=
  inferInstanceAs (Decidable (_ ∧ ∃ task ∈ s.tasks, _))

/-- A registry, and the subscribers whose drain task lost its link. -/
structure Served where
  /-- The registry. -/
  sys : FlushSys
  /-- Whose link was lost. -/
  lost : List SubscriberId

namespace Served

/-- `TopicRegistry::new`. -/
def init : Served := ⟨FlushSys.init, []⟩

/-- The subscriber whose task is told that its link is lost. -/
def lostBy (s : FlushSys) : FlushAction → List SubscriberId
  | .drain k e => ((s.tasks[k]?).filter fun task => task.2.losesLink e).toList.map Prod.fst
  | _ => []

/-- One step of the system. -/
def step (b : FrameBuilder) (o : RegistryOptions) (s : Served) (a : FlushAction) : Option Served :=
  (s.sys.step b o a).map fun s' => ⟨s', s.lost ++ lostBy s.sys a⟩

/-- `quiesce` is called. -/
def quiesces : FlushAction → Bool
  | .call .quiesceSwap => true
  | _ => false

/-- Nobody calls `quiesce`. -/
def BeforeQuiesce (_ : Served) (a : FlushAction) : Prop := quiesces a = false

instance (s : Served) (a : FlushAction) : Decidable (BeforeQuiesce s a) :=
  inferInstanceAs (Decidable (quiesces a = false))

end Served

/-! ### One step of a drain task -/

/-- A task nobody else closes and no topic completes serves until it loses its link. -/
theorem serving_drainStep {e : LinkEvent} {c c' : Cell} {pc pc' : DrainPc}
    (hclosed : c.closed = pc.gone) (hfinished : c.finished = false)
    (hst : drainStep e c pc = some (c', pc')) :
    c'.closed = pc'.gone ∧ pc'.serving = (pc.serving && !pc.losesLink e) := by
  cases drainMove_of_drainStep hst with
  | stop hc => rw [hc] at hclosed; cases hclosed
  | complete hf => rw [hf] at hfinished; cases hfinished
  | emptied lost => cases lost <;> exact ⟨hclosed, rfl⟩
  | settled lost => cases lost <;> exact ⟨hclosed, rfl⟩
  | signal lost => cases lost <;> exact ⟨hclosed, rfl⟩
  | close => exact ⟨rfl, rfl⟩
  | _ => exact ⟨hclosed, rfl⟩

/-- No task completes its own topic. -/
theorem finished_drainStep {e : LinkEvent} {c c' : Cell} {pc pc' : DrainPc}
    (hst : drainStep e c pc = some (c', pc')) : c'.finished = c.finished := by
  cases drainMove_of_drainStep hst <;> rfl

/-! ### What a call does to the maps and the lanes -/

/-- The operation belongs to `finish`. -/
def CellOp.finishes : CellOp → Bool
  | .enqueueEnd _ => true
  | .storeFinished => true
  | _ => false

theorem CellOp.finished_exec_of_not_finishes {op : CellOp} (h : op.finishes = false) (c : Cell) :
    (op.exec c).finished = c.finished := by
  rw [CellOp.finished_exec]
  cases op with
  | storeFinished => cases h
  | _ => exact Bool.or_false _

theorem CellOp.finishes_followUps {op op' : CellOp} {c : Cell} (h : op.finishes = false)
    (hmem : op' ∈ op.followUps c) : op'.finishes = false := by
  rcases CellOp.mem_followUps hmem with rfl | rfl | rfl
  · rfl
  · rfl
  · -- only `finish` goes on to store the flag
    cases op with
    | offer capacity onFull topic update =>
      simp only [CellOp.followUps] at hmem
      cases ho : c.offered capacity onFull topic <;> simp [ho] at hmem
    | enqueueEnd f => cases h
    | storeFinished => cases h
    | storeClosed => simp [CellOp.followUps] at hmem
    | countDrop => simp [CellOp.followUps] at hmem
    | wake => simp [CellOp.followUps] at hmem

/-- What a call does as long as nobody quiesces. -/
structure OpenFrame (b : FrameBuilder) (o : RegistryOptions) (n n' : Node) (a : NodeAction) :
    Prop where
  /-- Still nobody quiesces. -/
  quiesce : n'.quiesce = .idle
  /-- A registered subscriber was registered before, or is the one just created. -/
  mapped : ∀ id sub, n'.state.subscribers.lookup id = some sub →
    n.state.subscribers.lookup id = some sub ∨
      id = ⟨n.nextSubscriber⟩ ∧ n'.nextSubscriber = n.nextSubscriber + 1
  /-- The section works on registered subscribers and completes no topic. -/
  ops : ∀ id op, (id, op) ∈ cellOps b o n a →
    op.finishes = false ∧ ∃ sub, n.state.subscribers.lookup id = some sub

variable {b : FrameBuilder} {o : RegistryOptions}

theorem openFrame_of_frame {n n' : Node} {a : NodeAction} (hq : n'.quiesce = .idle)
    (hsub : n'.state.subscribers = n.state.subscribers) (hops : cellOps b o n a = []) :
    OpenFrame b o n n' a where
  quiesce := hq
  mapped := by
    rw [hsub]
    exact fun id sub h => .inl h
  ops := by
    rw [hops]
    intro id op h
    cases h

theorem openFrame_registerBody {n : Node} (hq : n.quiesce = .idle) (c : ConnectionId) (t : Topic) :
    OpenFrame b o n (n.registerBody o c t) .registerBody := by
  unfold Node.registerBody
  split
  · next s hr =>
    refine ⟨hq, ?_, ?_⟩
    · intro id sub h
      simp only [(State.lookup_of_register hr).1, Table.lookup_insert_eq] at h
      split at h
      · next hid => exact .inr ⟨hid, rfl⟩
      · exact .inl h
    · intro id op h
      cases h
  · exact openFrame_of_frame hq rfl rfl

/-- A section that removes subscribers and closes them. -/
theorem openFrame_of_removal {n n' : Node} {a : NodeAction} (ids : List SubscriberId)
    (hq : n'.quiesce = .idle) (hshrink : State.Shrinks n.state n'.state)
    (hops : cellOps b o n a = ids.filterMap fun id =>
      (n.state.subscribers.lookup id).map fun _ => (id, .storeClosed)) :
    OpenFrame b o n n' a where
  quiesce := hq
  mapped := fun id sub h => .inl (hshrink.subscribers id sub h)
  ops := by
    intro id op hmem
    simp only [hops, List.mem_filterMap, Option.map_eq_some_iff, Prod.mk.injEq] at hmem
    obtain ⟨id', -, sub, hsub, rfl, rfl⟩ := hmem
    exact ⟨rfl, sub, hsub⟩

/-- **What a call does as long as nobody quiesces.** -/
theorem openFrame_of_step {n n' : Node} {a : NodeAction} (hq : n.quiesce = .idle)
    (hswap : a ≠ .quiesceSwap) (ha : a.elsewhere = false) (hst : n.step b o a = some n') :
    OpenFrame b o n n' a := by
  cases Node.fires_of_step hst with
  | admitConnection handle identity => exact openFrame_of_frame hq rfl rfl
  | insertConnection a => exact openFrame_of_frame hq rfl rfl
  | registerCheck c t => exact openFrame_of_frame hq rfl rfl
  | registerBody c t => exact openFrame_registerBody hq c t
  | unregister c t =>
    have hshrink := State.shrinks_unregister n.state c t
    refine openFrame_of_removal (n.state.unregister c t).1.toList ?_ ?_ rfl
    · unfold Node.unregister
      split <;> exact hq
    · unfold Node.unregister
      split <;> next hs => rw [hs] at hshrink; exact hshrink
  | dropConnection c =>
    exact openFrame_of_removal _ hq (State.shrinks_dropConnection n.state c) rfl
  | deliverCheck => exact openFrame_of_frame hq rfl rfl
  | deliverBody t order payload policy =>
    unfold Node.deliverBody
    refine ⟨?_, ?_, ?_⟩
    · split <;> exact hq
    · intro id sub h
      split at h <;> exact .inl h
    · intro id op hmem
      simp only [cellOps] at hmem
      split at hmem
      · cases hmem
      · simp only [List.mem_filterMap, Option.map_eq_some_iff, Prod.mk.injEq] at hmem
        obtain ⟨id', -, sub, hsub, rfl, rfl⟩ := hmem
        exact ⟨rfl, sub, hsub⟩
  | quiesceSwap => exact absurd rfl hswap
  | quiesceSnapshot hfree h => rw [hq] at h; cases h
  | reserved f h => rw [hq] at h; cases h
  | failed cause h => rw [hq] at h; cases h
  | quiesceFinish ends hfree h => rw [hq] at h; cases h
  | disconnect c => cases ha
  | drainPop id => cases ha
  | drainSettle id => cases ha

/-! ### The invariant -/

namespace Served

/-- What holds of a registry before anybody quiesces it. -/
structure Alive (o : RegistryOptions) (s : Served) : Prop where
  /-- The tasks and the section at work. -/
  sound : FlushSys.Sound o s.sys
  /-- Nobody quiesces. -/
  quiesce : s.sys.node.quiesce = .idle
  /-- No topic is completed. -/
  unfinished : ∀ id, (s.sys.node.cells id).finished = false
  /-- The section at work completes none and works on numbers handed out. -/
  work : ∀ id op, (id, op) ∈ s.sys.work →
    op.finishes = false ∧ id.val < s.sys.node.nextSubscriber
  /-- A lane nobody owns yet is open. -/
  fresh : ∀ id : SubscriberId, s.sys.node.nextSubscriber ≤ id.val →
    (s.sys.node.cells id).closed = false
  /-- Only a task that exists has lost its link. -/
  losers : ∀ id ∈ s.lost, id.val < s.sys.node.nextSubscriber
  /-- A registered subscriber has a drain task. -/
  tasked : ∀ id sub, s.sys.node.state.subscribers.lookup id = some sub →
    ∃ pc, (id, pc) ∈ s.sys.tasks
  /-- It is closed by that task alone. -/
  closed : ∀ task ∈ s.sys.tasks, ∀ sub, s.sys.node.state.subscribers.lookup task.1 = some sub →
    (s.sys.node.cells task.1).closed = task.2.gone
  /-- The task serves as long as it has its link. -/
  serving : ∀ task ∈ s.sys.tasks, ∀ sub, s.sys.node.state.subscribers.lookup task.1 = some sub →
    (task.2.serving = true ↔ task.1 ∉ s.lost)

theorem alive_init (o : RegistryOptions) : Alive o init where
  sound := FlushSys.sound_init o
  quiesce := rfl
  unfinished := fun _ => rfl
  work := by intro id op h; cases h
  fresh := fun _ _ => rfl
  losers := by intro id h; cases h
  tasked := by intro id sub h; simp [init, FlushSys.init, Node.init, State.empty] at h
  closed := by intro task h; cases h
  serving := by intro task h; cases h

variable {s : Served}

/-- A step that leaves the maps, the lanes, the section and the tasks alone. -/
theorem Alive.of_same (h : Alive o s) {sys : FlushSys} (hsound : FlushSys.Sound o sys)
    (hnode : sys.node = s.sys.node) (hwork : sys.work = s.sys.work)
    (htasks : sys.tasks = s.sys.tasks) : Alive o ⟨sys, s.lost⟩ where
  sound := hsound
  quiesce := by simp only [hnode]; exact h.quiesce
  unfinished := by simp only [hnode]; exact h.unfinished
  work := by simp only [hnode, hwork]; exact h.work
  fresh := by simp only [hnode]; exact h.fresh
  losers := by simp only [hnode]; exact h.losers
  tasked := by simp only [hnode, htasks]; exact h.tasked
  closed := by simp only [hnode, htasks]; exact h.closed
  serving := by simp only [hnode, htasks]; exact h.serving

/-- A registered number was handed out. -/
theorem Alive.lt_next (h : Alive o s) {id : SubscriberId} {sub : Subscriber}
    (hsub : s.sys.node.state.subscribers.lookup id = some sub) :
    id.val < s.sys.node.nextSubscriber := h.sound.node.subscribers id sub hsub

theorem alive_call {a : NodeAction} (h : Alive o s) (hswap : a ≠ .quiesceSwap) {sys : FlushSys}
    (hst : s.sys.call b o a = some sys) : Alive o ⟨sys, s.lost⟩ := by
  have hsound := FlushSys.sound_call h.sound hst
  obtain ⟨n, hn, helse, hlocks, rfl⟩ := FlushSys.call_cases hst
  have hopen := openFrame_of_step h.quiesce hswap helse hn
  have hspawned := spawned_of_callFrame (callFrame_of_step helse hn)
  have hnext : s.sys.node.nextSubscriber ≤ n.nextSubscriber := by
    rcases hspawned with ⟨-, hs⟩ | ⟨-, hs⟩ <;> omega
  -- a task of a subscriber that was registered before, or the new one
  have htask : ∀ task ∈ s.sys.tasks ++ spawned s.sys.node n, ∀ sub,
      n.state.subscribers.lookup task.1 = some sub →
      (task ∈ s.sys.tasks ∧ s.sys.node.state.subscribers.lookup task.1 = some sub) ∨
        task = (⟨s.sys.node.nextSubscriber⟩, .readClosed) := by
    intro task hmem sub hsub
    rcases List.mem_append.mp hmem with hmem | hmem
    · rcases hopen.mapped task.1 sub hsub with hold | ⟨hid, -⟩
      · exact .inl ⟨hmem, hold⟩
      · have hknown := h.sound.known task hmem
        rw [hid] at hknown
        exact absurd hknown (lt_irrefl _)
    · rcases hspawned with ⟨htasks, -⟩ | ⟨htasks, -⟩
      · rw [htasks] at hmem
        cases hmem
      · rw [htasks, List.mem_singleton] at hmem
        exact .inr hmem
  refine ⟨hsound, hopen.quiesce, h.unfinished, ?_, ?_, ?_, ?_, ?_, ?_⟩
  · intro id op hmem
    rcases List.mem_append.mp hmem with hmem | hmem
    · exact ⟨(h.work id op hmem).1, (h.work id op hmem).2.trans_le hnext⟩
    · obtain ⟨hop, sub, hsub⟩ := hopen.ops id op hmem
      exact ⟨hop, (h.lt_next hsub).trans_le hnext⟩
  · exact fun id hid => h.fresh id (hnext.trans hid)
  · exact fun id hid => (h.losers id hid).trans_le hnext
  · intro id sub hsub
    rcases hopen.mapped id sub hsub with hold | ⟨hid, hn'⟩
    · obtain ⟨pc, hpc⟩ := h.tasked id sub hold
      exact ⟨pc, List.mem_append_left _ hpc⟩
    · refine ⟨.readClosed, List.mem_append_right _ ?_⟩
      rcases hspawned with ⟨-, hs⟩ | ⟨htasks, -⟩
      · omega
      · rw [htasks, hid]
        exact List.mem_singleton_self _
  · intro task hmem sub hsub
    rcases htask task hmem sub hsub with ⟨hold, hlookup⟩ | rfl
    · exact h.closed task hold sub hlookup
    · exact h.fresh _ le_rfl
  · intro task hmem sub hsub
    rcases htask task hmem sub hsub with ⟨hold, hlookup⟩ | rfl
    · exact h.serving task hold sub hlookup
    · refine iff_of_true rfl fun hlost => ?_
      exact absurd (h.losers _ hlost) (lt_irrefl _)

theorem alive_doWork (h : Alive o s) {sys : FlushSys} (hst : s.sys.doWork = some sys) :
    Alive o ⟨sys, s.lost⟩ := by
  have hsound := FlushSys.sound_doWork h.sound hst
  unfold FlushSys.doWork at hst
  split at hst
  · cases hst
  · next id op rest hwork =>
    cases hst
    have hhead := h.work id op (by rw [hwork]; exact List.mem_cons_self)
    refine ⟨hsound, h.quiesce, ?_, ?_, ?_, h.losers, h.tasked, ?_, h.serving⟩
    · intro id'
      by_cases hid : id' = id
      · subst hid
        simp only [FlushSys.setCell, Function.update_self]
        rw [CellOp.finished_exec_of_not_finishes hhead.1]
        exact h.unfinished id'
      · simp only [FlushSys.setCell, Function.update_of_ne hid]
        exact h.unfinished id'
    · intro id' op' hmem
      rcases List.mem_append.mp hmem with hmem | hmem
      · obtain ⟨op'', hop'', heq⟩ := List.mem_map.mp hmem
        cases heq
        exact ⟨CellOp.finishes_followUps hhead.1 hop'', hhead.2⟩
      · exact h.work id' op' (by rw [hwork]; exact List.mem_cons_of_mem _ hmem)
    · -- work is pending only for ids that were handed out
      intro id' hid'
      have hne : id' ≠ id := by
        rintro rfl
        exact absurd hhead.2 (not_lt.mpr hid')
      simp only [FlushSys.setCell, Function.update_of_ne hne]
      exact h.fresh id' hid'
    · intro task htask sub hsub
      have hold := h.closed task htask sub hsub
      by_cases hid : task.1 = id
      · -- the section closes only whom it removed
        have hkeep : op.storesClosed = false := by
          by_contra hstores
          refine h.sound.closing id op (by rw [hwork]; exact List.mem_cons_self)
            (by simpa using hstores) ?_
          rw [← hid]
          exact Table.mem_of_lookup hsub
        rw [hid] at hold ⊢
        simp only [FlushSys.setCell, Function.update_self]
        rw [CellOp.closed_exec, hkeep, Bool.or_false]
        exact hold
      · simp only [FlushSys.setCell, Function.update_of_ne hid]
        exact hold

theorem mem_lostBy {sys : FlushSys} {k : ℕ} {e : LinkEvent} {id id' : SubscriberId} {pc : DrainPc}
    (hk : sys.tasks[k]? = some (id, pc)) :
    id' ∈ lostBy sys (.drain k e) ↔ id' = id ∧ pc.losesLink e = true := by
  simp only [lostBy, hk]
  cases hlose : pc.losesLink e <;> simp [Option.filter, hlose]

theorem alive_drain {k : ℕ} {e : LinkEvent} (h : Alive o s) {sys : FlushSys}
    (hst : s.sys.drain k e = some sys) : Alive o ⟨sys, s.lost ++ lostBy s.sys (.drain k e)⟩ := by
  have hsound := FlushSys.sound_drain h.sound hst
  unfold FlushSys.drain at hst
  split at hst
  · cases hst
  · next id pc hk =>
    rw [Option.map_eq_some_iff] at hst
    obtain ⟨⟨c', pc'⟩, hd, rfl⟩ := hst
    have hmem : (id, pc) ∈ s.sys.tasks := List.mem_of_getElem? hk
    refine ⟨hsound, h.quiesce, ?_, h.work, ?_, ?_, ?_, ?_, ?_⟩
    · intro id'
      by_cases hid : id' = id
      · subst hid
        simp only [FlushSys.setCell, Function.update_self]
        exact (finished_drainStep hd).trans (h.unfinished id')
      · simp only [FlushSys.setCell, Function.update_of_ne hid]
        exact h.unfinished id'
    · intro id' hid'
      have hne : id' ≠ id := by
        rintro rfl
        exact absurd (h.sound.known _ hmem) (not_lt.mpr hid')
      simp only [FlushSys.setCell, Function.update_of_ne hne]
      exact h.fresh id' hid'
    · intro id' hlost
      rcases List.mem_append.mp hlost with hlost | hlost
      · exact h.losers id' hlost
      · rw [((mem_lostBy hk).mp hlost).1]
        exact h.sound.known _ hmem
    · intro id' sub hsub
      obtain ⟨pc₀, hpc₀⟩ := h.tasked id' sub hsub
      have hin : id' ∈ (s.sys.tasks.set k (id, pc')).map Prod.fst := by
        rw [FlushSys.map_fst_set hk]
        exact List.mem_map_of_mem hpc₀
      obtain ⟨task, htask, rfl⟩ := List.mem_map.mp hin
      exact ⟨task.2, htask⟩
    · intro task htask sub hsub
      rcases FlushSys.mem_set_task h.sound.distinct hk htask with rfl | ⟨hold, hne⟩
      · simp only [FlushSys.setCell, Function.update_self]
        exact (serving_drainStep (h.closed _ hmem sub hsub) (h.unfinished id) hd).1
      · simp only [FlushSys.setCell, Function.update_of_ne hne]
        exact h.closed task hold sub hsub
    · -- the task that moved serves on unless this very move lost its link
      intro task htask sub hsub
      rw [List.mem_append, not_or, mem_lostBy hk]
      rcases FlushSys.mem_set_task h.sound.distinct hk htask with rfl | ⟨hold, hne⟩
      · have hserving := h.serving _ hmem sub hsub
        rw [(serving_drainStep (h.closed _ hmem sub hsub) (h.unfinished id) hd).2,
          Bool.and_eq_true, hserving]
        simp
      · rw [h.serving task hold sub hsub]
        exact ⟨fun hnot => ⟨hnot, fun hlose => hne hlose.1⟩, And.left⟩

/-- A `flushed` call moves nothing but itself. -/
theorem caller_frame {j : ℕ} {sys sys' : FlushSys} (hst : sys.caller j = some sys') :
    sys'.node = sys.node ∧ sys'.work = sys.work ∧ sys'.tasks = sys.tasks := by
  unfold FlushSys.caller at hst
  split at hst
  · cases hst
  · split at hst
    · cases hst; exact ⟨rfl, rfl, rfl⟩
    · cases hst
  · cases hst; exact ⟨rfl, rfl, rfl⟩
  · cases hst; exact ⟨rfl, rfl, rfl⟩
  · cases hst; exact ⟨rfl, rfl, rfl⟩
  · split at hst
    · cases hst; exact ⟨rfl, rfl, rfl⟩
    · cases hst; exact ⟨rfl, rfl, rfl⟩
  · split at hst
    · cases hst; exact ⟨rfl, rfl, rfl⟩
    · cases hst
  · cases hst

/-- **The step lemma.** -/
theorem alive_step {s' : Served} {a : FlushAction} (h : Alive o s) (hg : BeforeQuiesce s a)
    (hst : s.step b o a = some s') : Alive o s' := by
  unfold step at hst
  rw [Option.map_eq_some_iff] at hst
  obtain ⟨sys, hsys, rfl⟩ := hst
  cases a with
  | call a =>
    simp only [lostBy, List.append_nil]
    refine alive_call h ?_ hsys
    rintro rfl
    cases hg
  | work =>
    simp only [lostBy, List.append_nil]
    exact alive_doWork h hsys
  | drain k e => exact alive_drain h hsys
  | flushed =>
    simp only [lostBy, List.append_nil]
    have hsound := FlushSys.sound_step h.sound hsys
    cases hsys
    exact h.of_same hsound rfl rfl rfl
  | caller j =>
    simp only [lostBy, List.append_nil]
    obtain ⟨hnode, hwork, htasks⟩ := caller_frame hsys
    exact h.of_same (FlushSys.sound_caller h.sound hsys) hnode hwork htasks

theorem alive_of_reaches (h : Reaches (step b o) BeforeQuiesce init s) : Alive o s :=
  h.invariant (alive_init o) fun _ _ _ _ hi hg hst => alive_step hi hg hst

/-! ### Acknowledging a subscription -/

/-- A registered subscriber is served exactly while its task has its link. -/
theorem Alive.serves_iff (h : Alive o s) {id : SubscriberId} {sub : Subscriber}
    (hsub : s.sys.node.state.subscribers.lookup id = some sub) :
    s.sys.Serves id ↔ id ∉ s.lost := by
  constructor
  · rintro ⟨-, task, htask, rfl, hserving⟩
    exact (h.serving task htask sub hsub).mp hserving
  · intro hlost
    obtain ⟨pc, hpc⟩ := h.tasked id sub hsub
    have hserving := (h.serving _ hpc sub hsub).mpr hlost
    refine ⟨?_, _, hpc, rfl, hserving⟩
    rw [h.closed _ hpc sub hsub]
    cases pc <;> first | rfl | cases hserving

/-- The acknowledged subscriber is registered after the call. -/
theorem registered_of_acknowledged {n : Node} {id : SubscriberId} (hinv : Node.Inv o n)
    (hack : acknowledged o n = some id) {n' : Node} (hst : n.step b o .registerBody = some n') :
    ∃ sub, n'.state.subscribers.lookup id = some sub := by
  cases Node.fires_of_step hst with
  | registerBody c t hlock =>
    simp only [acknowledged, hlock] at hack
    unfold Node.registerBody
    cases hr : n.state.register o.maxSubscriptionsPerConnection ⟨n.nextSubscriber⟩ c t with
    | refused e => rw [hr] at hack; cases hack
    | existing existing =>
      rw [hr] at hack
      cases hack
      exact ⟨_, hinv.coherent.subscriber (State.holds_of_existing hr)⟩
    | created s =>
      rw [hr] at hack
      cases hack
      simp only [(State.lookup_of_register hr).1, Table.lookup_insert_eq, if_true]
      exact ⟨_, rfl⟩

/-- The subscriber `register` answers with is the one the connection holds, or a new one
that has lost nothing. -/
theorem Alive.kept_iff (h : Alive o s) {c : ConnectionId} {t : Topic} {id : SubscriberId}
    (hlock : s.sys.node.lock = .registering c t) (hack : acknowledged o s.sys.node = some id) :
    id ∉ s.lost ↔ ∀ held, s.sys.node.state.Holds c t held → held ∉ s.lost := by
  simp only [acknowledged, hlock] at hack
  cases hr : s.sys.node.state.register o.maxSubscriptionsPerConnection
      ⟨s.sys.node.nextSubscriber⟩ c t with
  | refused e => rw [hr] at hack; cases hack
  | existing existing =>
    rw [hr] at hack
    cases hack
    have hholds := State.holds_of_existing hr
    refine ⟨?_, fun hall => hall id hholds⟩
    rintro hkept held ⟨k, hk, hheld⟩
    obtain ⟨k', hk', hid⟩ := hholds
    rw [hk] at hk'
    cases hk'
    rw [hheld] at hid
    cases hid
    exact hkept
  | created state =>
    rw [hr] at hack
    cases hack
    obtain ⟨connected, hc, ht, -, -⟩ := State.created_of_register hr
    refine iff_of_true (fun hlost => absurd (h.losers _ hlost) (lt_irrefl _)) ?_
    rintro held ⟨k, hk, hheld⟩
    rw [hc] at hk
    cases hk
    rw [ht] at hheld
    cases hheld

/-- **An acknowledged subscription is served exactly when the link of its drain task was
never lost.**  In every state reached before `quiesce`, when `register` answers a connection
and a topic with a subscriber: it is open and its drain task is at work if and only if the
subscriber under which the connection holds the topic, if it does, has a drain task none of
whose emits and waits for a stream was answered with a lost link so far. -/
theorem register_serves_iff_link_kept (b : FrameBuilder) (o : RegistryOptions) (s s' : Served)
    (c : ConnectionId) (t : Topic) (id : SubscriberId)
    (hreach : Reaches (step b o) BeforeQuiesce init s)
    (hlock : s.sys.node.lock = .registering c t) (hack : acknowledged o s.sys.node = some id)
    (hst : s.step b o (.call .registerBody) = some s') :
    s'.sys.Serves id ↔ ∀ held, s.sys.node.state.Holds c t held → held ∉ s.lost := by
  have halive := alive_of_reaches hreach
  have hg : BeforeQuiesce s (.call .registerBody) := rfl
  have halive' := alive_step halive hg hst
  rw [← halive.kept_iff hlock hack]
  unfold step at hst
  rw [Option.map_eq_some_iff] at hst
  obtain ⟨sys, hsys, rfl⟩ := hst
  simp only [lostBy, List.append_nil] at halive' ⊢
  obtain ⟨n, hn, -, -, rfl⟩ := FlushSys.call_cases hsys
  obtain ⟨sub, hsub⟩ := registered_of_acknowledged halive.sound.node hack hn
  exact halive'.serves_iff hsub

/-- A subscriber whose first emit fails: its task closes it and returns.  The connection
subscribes again. -/
def failingRun (t : Topic) : List FlushAction :=
  FlushSys.pendingRun t ++ .drain 0 .failed :: List.replicate 4 (.drain 0 .accepted) ++
    [.call (.registerCheck ⟨1⟩ t)]

/-- **`register` acknowledges a dead lane**: the subscriber it answers with is closed and
its drain task has returned. -/
theorem register_acknowledges_dead_lane :
    ¬ ∀ (b : FrameBuilder) (o : RegistryOptions) (s s' : Served) (id : SubscriberId),
      Reaches (step b o) BeforeQuiesce init s → acknowledged o s.sys.node = some id →
      s.step b o (.call .registerBody) = some s' → s'.sys.Serves id := by
  intro h
  have hrun : (runs (restrict (step .total .default) BeforeQuiesce) init
      (failingRun Topic.prices)).map (fun s => (acknowledged .default s.sys.node,
        (s.step .total .default (.call .registerBody)).map fun s' => decide (s'.sys.Serves ⟨1⟩))) =
      some (some ⟨1⟩, some false) := by
    decide +kernel
  obtain ⟨s, hrun, hobs⟩ := Option.map_eq_some_iff.mp hrun
  simp only [Prod.mk.injEq] at hobs
  obtain ⟨hack, hstep⟩ := hobs
  obtain ⟨s', hst, hdead⟩ := Option.map_eq_some_iff.mp hstep
  have hreach : Reaches (step .total .default) BeforeQuiesce init s := Reaches.of_runs _ .start hrun
  exact of_decide_eq_false hdead (h .total .default s s' ⟨1⟩ hreach hack hst)

/-- `register` of this connection and topic holds the lock. -/
def registers (n : Node) (c : ConnectionId) (t : Topic) : Bool :=
  match n.lock with
  | .registering c' t' => decide (c' = c ∧ t' = t)
  | _ => false

theorem lock_of_registers {n : Node} {c : ConnectionId} {t : Topic} (h : registers n c t = true) :
    n.lock = .registering c t := by
  unfold registers at h
  split at h
  · next hlock =>
    obtain ⟨rfl, rfl⟩ := of_decide_eq_true h
    exact hlock
  · cases h

/-- The same subscription acknowledged while its first emit is under way. -/
theorem register_serves_pending_lane :
    ∃ s s' : Served, Reaches (step .total .default) BeforeQuiesce init s ∧
      acknowledged .default s.sys.node = some ⟨1⟩ ∧
      s.step .total .default (.call .registerBody) = some s' ∧ s'.sys.Serves ⟨1⟩ := by
  have hrun : (runs (restrict (step .total .default) BeforeQuiesce) init
      (FlushSys.pendingRun Topic.prices ++ [.call (.registerCheck ⟨1⟩ Topic.prices)])).map (fun s =>
        (registers s.sys.node ⟨1⟩ Topic.prices, acknowledged .default s.sys.node, s.lost,
          (s.step .total .default (.call .registerBody)).isSome)) =
      some (true, some ⟨1⟩, [], true) := by
    decide +kernel
  obtain ⟨s, hrun, hobs⟩ := Option.map_eq_some_iff.mp hrun
  simp only [Prod.mk.injEq] at hobs
  obtain ⟨hlock, hack, hlost, hsome⟩ := hobs
  obtain ⟨s', hst⟩ := Option.isSome_iff_exists.mp hsome
  have hreach : Reaches (step .total .default) BeforeQuiesce init s := Reaches.of_runs _ .start hrun
  refine ⟨s, s', hreach, hack, hst, (register_serves_iff_link_kept .total .default s s' ⟨1⟩
    Topic.prices ⟨1⟩ hreach (lock_of_registers hlock) hack hst).mpr ?_⟩
  intro held _
  rw [hlost]
  exact List.not_mem_nil

end Served
end Pubsub
end TightbeamExt
