import TightbeamExt.Pubsub.Flush

/-!
# No lost wake-up for `flushed`, and when there is one

A caller that waits is woken by drain tasks that leave a queue empty.  Either some
live subscriber is still pending — its drain task will signal later — or the
callers that wait are covered by the permit and the signals under way.  Steps that
are `Mindful` keep it so.

## Main results

* `sound_step` — the tasks, the section at work and the scans.
* `awake_step` — some live subscriber is pending or the callers are covered.
* `flushed_parks_only_over_pending` — **in mindful runs nobody sleeps over nothing**.
* `flushed_sleeps_on` — of two callers one is woken and the other sleeps on.
-/

namespace TightbeamExt
namespace Pubsub

open Transition

/-! ### Counting -/

/-- Replacing one entry moves a count by that entry. -/
theorem countP_set_add {α : Type*} {p : α → Bool} {l : List α} {k : ℕ} {x : α} (y : α)
    (h : l[k]? = some x) :
    (l.set k y).countP p + (if p x then 1 else 0) = l.countP p + (if p y then 1 else 0) := by
  obtain ⟨hk, rfl⟩ := List.getElem?_eq_some_iff.mp h
  rw [List.countP_set hk]
  by_cases hp : p l[k] = true
  · have hpos : 0 < l.countP p := List.countP_pos_iff.mpr ⟨l[k], List.getElem_mem hk, hp⟩
    simp only [hp, if_true]
    omega
  · simp [hp]

/-! ### One step of a drain task -/

/-- `in_flight` is set exactly between a pop and the end of its emit. -/
theorem inFlight_drainStep {e : LinkEvent} {c c' : Cell} {pc pc' : DrainPc}
    (h : c.lane.inFlight = pc.inFlight) (hst : drainStep e c pc = some (c', pc')) :
    c'.lane.inFlight = pc'.inFlight := by
  have hafter : ∀ lost, (DrainPc.afterEmit lost).inFlight = false := by
    intro lost
    cases lost with
    | false => rfl
    | true => rfl
  cases drainMove_of_drainStep hst with
  | dry hq => rfl
  | take f q hq => rfl
  | emptied lost hq => rfl
  | settled lost hq => exact (hafter lost).symm
  | signal lost => rw [h, hafter lost]; rfl
  | _ => exact h

/-- The task ends an emit over an empty queue. -/
def DrainPc.empties (c : Cell) : DrainPc → Bool
  | .settle _ => c.lane.queue.isEmpty
  | _ => false

/-- The task closes its subscriber. -/
def DrainPc.closes : DrainPc → Bool
  | .storeClosed => true
  | _ => false

/-- Only the end of an emit over an empty queue leads to a signal. -/
theorem signals_drainStep {e : LinkEvent} {c c' : Cell} {pc pc' : DrainPc}
    (hst : drainStep e c pc = some (c', pc')) : pc'.signals = pc.empties c := by
  have hafter : ∀ lost, (DrainPc.afterEmit lost).signals = false := by
    intro lost
    cases lost with
    | false => rfl
    | true => rfl
  cases drainMove_of_drainStep hst with
  | emptied lost hq => simp [DrainPc.empties, DrainPc.signals, hq]
  | settled lost hq => simp [DrainPc.empties, hafter, hq]
  | signal lost => exact hafter lost
  | _ => rfl

/-- Any other step leaves a live pending lane live and pending. -/
theorem live_drainStep {e : LinkEvent} {c c' : Cell} {pc pc' : DrainPc}
    (h : c.lane.inFlight = pc.inFlight) (hst : drainStep e c pc = some (c', pc'))
    (hempties : pc.empties c = false) (hcloses : pc.closes = false) (hlive : c.live) : c'.live := by
  cases drainMove_of_drainStep hst with
  | dry hq =>
    -- nothing queued and nothing in flight: the lane was not pending
    have hp := hlive.2
    simp [Cell.pending, hq, h, DrainPc.inFlight] at hp
  | take f q hq => exact ⟨hlive.1, rfl⟩
  | emptied lost hq => simp [DrainPc.empties, hq] at hempties
  | settled lost hq => exact ⟨hlive.1, by simp [Cell.pending, Cell.settle, hq]⟩
  | close => cases hcloses
  | _ => exact hlive

/-- No operation of a section but the store of `closed` takes a pending update
away. -/
theorem live_exec {op : CellOp} {c : Cell} (hop : op.storesClosed = false) (hlive : c.live) :
    (op.exec c).live := by
  refine ⟨by rw [CellOp.closed_exec, hlive.1, hop]; rfl, ?_⟩
  have hp := hlive.2
  simp only [Cell.pending, CellOp.inFlight_exec] at hp ⊢
  cases henq : op.enqueues c with
  | true => simp [CellOp.queue_exec_ne_nil henq]
  | false => rw [CellOp.queue_exec_of_not_enqueues henq]; exact hp

namespace FlushSys

variable {b : FrameBuilder} {o : RegistryOptions} {s s' : FlushSys}

/-! ### The tasks, the section at work and the scans -/

/-- What holds of the system between any two steps. -/
structure Sound (o : RegistryOptions) (s : FlushSys) : Prop where
  /-- The maps keep their invariant. -/
  node : Node.Inv o s.node
  /-- A permit is stored only while nobody is parked. -/
  settled : s.flush.Settled
  /-- A subscriber has one drain task. -/
  distinct : (s.tasks.map Prod.fst).Nodup
  /-- Its number was handed out. -/
  known : ∀ task ∈ s.tasks, task.1.val < s.node.nextSubscriber
  /-- `in_flight` is set exactly between a pop and the end of its emit. -/
  flights : ∀ task ∈ s.tasks, (s.node.cells task.1).lane.inFlight = task.2.inFlight
  /-- Nothing is in flight on a lane nobody owns yet. -/
  fresh : ∀ id : SubscriberId, s.node.nextSubscriber ≤ id.val →
    (s.node.cells id).lane.inFlight = false
  /-- A scan holds the lock and reads registered subscribers. -/
  scans : ∀ pc ∈ s.callers, pc.scanning = true →
    s.node.lock = .free ∧ ∀ id ∈ pc.reads, id ∈ s.node.state.subscribers.keys
  /-- A section at work is past its check. -/
  exclusive : s.work ≠ [] → s.node.lock = .free
  /-- It closes only whom it removed. -/
  closing : ∀ id op, (id, op) ∈ s.work → op.storesClosed = true →
    id ∉ s.node.state.subscribers.keys

theorem sound_init (o : RegistryOptions) : Sound o init where
  node := Node.inv_init o
  settled := Notify.settled_new
  distinct := List.nodup_nil
  known := by intro task h; cases h
  flights := by intro task h; cases h
  fresh := fun _ _ => rfl
  scans := by intro pc h; cases h
  exclusive := fun h => absurd rfl h
  closing := by intro id op h; cases h

/-- The lanes are not part of the maps. -/
theorem inv_setCells (h : Node.Inv o s.node) (cells : SubscriberId → Cell) :
    Node.Inv o { s.node with cells := cells } :=
  h.shrink (State.Shrinks.refl _) h.coherent rfl rfl rfl rfl rfl

/-- No scan and no other section runs while the lock is free. -/
theorem of_unlocked (h : s.unlocked = true) :
    s.node.lock = .free ∧ s.work = [] ∧ ∀ pc ∈ s.callers, pc.scanning = false := by
  simp only [unlocked, Bool.and_eq_true, List.all_eq_true, Bool.not_eq_true',
    List.isEmpty_iff] at h
  exact ⟨Node.lock_of_unlocked h.1.1, h.1.2, h.2⟩

/-- A call beside a scan or another section does not touch the maps. -/
theorem Sound.beside {a : NodeAction} {n : Node} (h : Sound o s)
    (hf : CallFrame b o s.node n a) (hlocks : a.locks = true → s.unlocked = true)
    (hother : s.work ≠ [] ∨ ∃ pc ∈ s.callers, pc.scanning = true) :
    n.lock = .free ∧ n.state.subscribers = s.node.state.subscribers ∧
      cellOps b o s.node a = [] := by
  have hnot : a.locks = false := by
    by_contra hl
    obtain ⟨-, hwork, hscan⟩ := of_unlocked (hlocks (by simpa using hl))
    rcases hother with hw | ⟨pc, hpc, hs⟩
    · exact hw hwork
    · rw [hscan pc hpc] at hs
      cases hs
  refine hf.lockless hnot ?_
  rcases hother with hw | ⟨pc, hpc, hs⟩
  · exact h.exclusive hw
  · exact (h.scans pc hpc hs).1

theorem sound_call {a : NodeAction} (h : Sound o s) (hst : s.call b o a = some s') :
    Sound o s' := by
  obtain ⟨n, hn, helse, hlocks, rfl⟩ := call_cases hst
  have hf := callFrame_of_step helse hn
  have hinv := Node.inv_step h.node hn
  have hbeside := h.beside hf hlocks
  have hspawned := spawned_of_callFrame hf
  have hnext : s.node.nextSubscriber ≤ n.nextSubscriber := by
    rcases hspawned with ⟨-, hs⟩ | ⟨-, hs⟩ <;> omega
  refine ⟨hinv.shrink (State.Shrinks.refl _) hinv.coherent rfl rfl rfl rfl rfl, h.settled,
    ?_, ?_, ?_, fun id hid => h.fresh id (hnext.trans hid), ?_, ?_, ?_⟩
  · rcases hspawned with ⟨htasks, -⟩ | ⟨htasks, -⟩
    · simpa [htasks] using h.distinct
    · simp only [htasks, List.map_append, List.map_cons, List.map_nil]
      rw [List.nodup_append]
      refine ⟨h.distinct, List.nodup_singleton _, ?_⟩
      -- the number is new
      intro id hid id' hid'
      obtain ⟨task, htask, rfl⟩ := List.mem_map.mp hid
      rw [List.mem_singleton] at hid'
      rintro rfl
      have hknown := h.known task htask
      rw [hid'] at hknown
      exact lt_irrefl _ hknown
  · intro task htask
    rcases List.mem_append.mp htask with htask | htask
    · exact (h.known task htask).trans_le hnext
    · rcases hspawned with ⟨htasks, -⟩ | ⟨htasks, hs⟩
      · rw [htasks] at htask
        cases htask
      · rw [htasks, List.mem_singleton] at htask
        rw [htask]
        simp only [hs]
        exact Nat.lt_succ_self _
  · intro task htask
    rcases List.mem_append.mp htask with htask | htask
    · exact h.flights task htask
    · rcases hspawned with ⟨htasks, -⟩ | ⟨htasks, -⟩
      · rw [htasks] at htask
        cases htask
      · rw [htasks, List.mem_singleton] at htask
        rw [htask]
        exact h.fresh _ le_rfl
  · intro pc hpc hs
    obtain ⟨hlock, hsub, -⟩ := hbeside (.inr ⟨pc, hpc, hs⟩)
    refine ⟨hlock, ?_⟩
    simp only [hsub]
    exact (h.scans pc hpc hs).2
  · intro hwork
    by_cases hw : s.work = []
    · simp only [hw, List.nil_append] at hwork
      exact hf.unlocks hwork
    · exact (hbeside (.inl hw)).1
  · intro id op hmem hclose
    by_cases hw : s.work = []
    · simp only [hw, List.nil_append] at hmem
      exact hf.closes id op hmem hclose
    · obtain ⟨-, hsub, hops⟩ := hbeside (.inl hw)
      simp only [hops, List.append_nil] at hmem
      simp only [hsub]
      exact h.closing id op hmem hclose

theorem sound_doWork (h : Sound o s) (hst : s.doWork = some s') : Sound o s' := by
  unfold doWork at hst
  split at hst
  · cases hst
  · next id op rest hwork =>
    cases hst
    have hlock := h.exclusive (by rw [hwork]; exact List.cons_ne_nil _ _)
    have hflight : ∀ id', (Function.update s.node.cells id (op.exec (s.node.cells id)) id').lane.inFlight =
        (s.node.cells id').lane.inFlight := by
      intro id'
      by_cases hid : id' = id
      · subst hid
        rw [Function.update_self, CellOp.inFlight_exec]
      · rw [Function.update_of_ne hid]
    refine ⟨inv_setCells h.node _, h.settled, h.distinct, h.known, ?_, ?_, h.scans,
      fun _ => hlock, ?_⟩
    · exact fun task htask => (hflight task.1).trans (h.flights task htask)
    · exact fun id' hid' => (hflight id').trans (h.fresh id' hid')
    · intro id' op' hmem hclose
      rw [List.mem_append] at hmem
      rcases hmem with hmem | hmem
      · -- what a call does after its first step never stores `closed`
        obtain ⟨op'', hop'', heq⟩ := List.mem_map.mp hmem
        cases heq
        rw [CellOp.storesClosed_followUps hop''] at hclose
        cases hclose
      · exact h.closing id' op' (by rw [hwork]; exact List.mem_cons_of_mem _ hmem) hclose

/-- A task of a list with one entry replaced. -/
theorem mem_set_task {tasks : List (SubscriberId × DrainPc)} (hd : (tasks.map Prod.fst).Nodup)
    {k : ℕ} {id : SubscriberId} {pc pc' : DrainPc} (hk : tasks[k]? = some (id, pc))
    {task : SubscriberId × DrainPc} (hmem : task ∈ tasks.set k (id, pc')) :
    task = (id, pc') ∨ task ∈ tasks ∧ task.1 ≠ id := by
  obtain ⟨i, hi⟩ := List.mem_iff_getElem?.mp hmem
  by_cases hik : k = i
  · subst hik
    have hlt := (List.getElem?_eq_some_iff.mp hk).1
    rw [List.getElem?_set_self hlt, Option.some.injEq] at hi
    exact .inl hi.symm
  · rw [List.getElem?_set_ne hik] at hi
    refine .inr ⟨List.mem_of_getElem? hi, ?_⟩
    intro hid
    have hlt : i < (tasks.map Prod.fst).length := by
      rw [List.length_map]
      exact (List.getElem?_eq_some_iff.mp hi).1
    refine hik ((List.getElem?_inj hlt hd).mp ?_).symm
    rw [List.getElem?_map, List.getElem?_map, hi, hk, Option.map_some, Option.map_some, hid]

theorem map_fst_set {tasks : List (SubscriberId × DrainPc)} {k : ℕ} {id : SubscriberId}
    {pc : DrainPc} (hk : tasks[k]? = some (id, pc)) (pc' : DrainPc) :
    (tasks.set k (id, pc')).map Prod.fst = tasks.map Prod.fst := by
  obtain ⟨hlt, hget⟩ := List.getElem?_eq_some_iff.mp hk
  rw [List.map_set]
  refine List.ext_getElem (by simp) ?_
  intro i hi hi'
  by_cases hik : k = i
  · subst hik
    simp [hget]
  · simp [List.getElem_set_ne hik]

theorem sound_drain {k : ℕ} {e : LinkEvent} (h : Sound o s) (hst : s.drain k e = some s') :
    Sound o s' := by
  unfold drain at hst
  split at hst
  · cases hst
  · next id pc hk =>
    rw [Option.map_eq_some_iff] at hst
    obtain ⟨⟨c', pc'⟩, hd, rfl⟩ := hst
    have hmem : (id, pc) ∈ s.tasks := List.mem_of_getElem? hk
    refine ⟨inv_setCells h.node _, ?_, ?_, ?_, ?_, ?_, h.scans, h.exclusive, h.closing⟩
    · split
      · exact h.settled.notifyOne
      · exact h.settled
    · rw [map_fst_set hk]
      exact h.distinct
    · intro task htask
      rcases mem_set_task h.distinct hk htask with rfl | ⟨ht, -⟩
      · exact h.known (id, pc) hmem
      · exact h.known task ht
    · intro task htask
      rcases mem_set_task h.distinct hk htask with rfl | ⟨ht, hne⟩
      · simp only [setCell, Function.update_self]
        exact inFlight_drainStep (h.flights _ hmem) hd
      · simp only [setCell, Function.update_of_ne hne]
        exact h.flights task ht
    · intro id' hid'
      have hne : id' ≠ id := by
        rintro rfl
        exact absurd (h.known _ hmem) (not_lt.mpr hid')
      simp only [setCell, Function.update_of_ne hne]
      exact h.fresh id' hid'

theorem sound_setCaller (h : Sound o s) (j : ℕ) {pc : FlushedPc} {flush : Notify ℕ}
    (hflush : flush.Settled)
    (hpc : pc.scanning = true →
      s.node.lock = .free ∧ ∀ id ∈ pc.reads, id ∈ s.node.state.subscribers.keys) :
    Sound o { s.setCaller j pc with flush := flush } := by
  refine ⟨h.node, hflush, h.distinct, h.known, h.flights, h.fresh, ?_, h.exclusive, h.closing⟩
  intro pc' hmem hs
  rcases List.mem_or_eq_of_mem_set hmem with hold | rfl
  · exact h.scans pc' hold hs
  · exact hpc hs

theorem sound_caller {j : ℕ} (h : Sound o s) (hst : s.caller j = some s') : Sound o s' := by
  unfold caller at hst
  split at hst
  · cases hst
  · split at hst
    · next hfree =>
      cases hst
      exact sound_setCaller h j h.settled fun _ => ⟨(of_unlocked hfree).1, fun _ hid => hid⟩
    · cases hst
  · cases hst
    exact sound_setCaller h j h.settled fun hs => by cases hs
  · next id todo hj =>
    cases hst
    have hscan := h.scans _ (List.mem_of_getElem? hj) rfl
    refine sound_setCaller h j h.settled fun _ => ⟨hscan.1, ?_⟩
    intro id' hid'
    refine hscan.2 id' ?_
    split at hid'
    · exact List.mem_cons_of_mem id hid'
    · exact hid'
  · next id todo hj =>
    cases hst
    have hscan := h.scans _ (List.mem_of_getElem? hj) rfl
    refine sound_setCaller h j h.settled fun _ => ⟨hscan.1, ?_⟩
    intro id' hid'
    refine hscan.2 id' ?_
    split at hid'
    · cases hid'
    · exact List.mem_cons_of_mem id hid'
  · have hsettled := h.settled.await j
    split at hst
    · next n hn =>
      cases hst
      rw [hn] at hsettled
      exact sound_setCaller h j hsettled fun hs => by cases hs
    · next n hn =>
      cases hst
      rw [hn] at hsettled
      exact sound_setCaller h j hsettled fun hs => by cases hs
  · split at hst
    · cases hst
      exact sound_setCaller h j h.settled fun hs => by cases hs
    · cases hst
  · cases hst

/-- **The step lemma of the tasks, the section and the scans.** -/
theorem sound_step {a : FlushAction} (h : Sound o s) (hst : s.step b o a = some s') :
    Sound o s' := by
  cases a with
  | call a => exact sound_call h hst
  | work => exact sound_doWork h hst
  | drain k e => exact sound_drain h hst
  | flushed =>
    cases hst
    refine ⟨h.node, h.settled, h.distinct, h.known, h.flights, h.fresh, ?_, h.exclusive, h.closing⟩
    intro pc hpc hs
    rw [List.mem_append, List.mem_singleton] at hpc
    rcases hpc with hpc | rfl
    · exact h.scans pc hpc hs
    · cases hs
  | caller j => exact sound_caller h hst

/-! ### Pending or covered -/

/-- Some live subscriber is pending, or enough wake-ups are under way. -/
def Awake (s : FlushSys) : Prop := s.LivePending ∨ s.Covered 0 0

theorem awake_init : Awake init := .inr ⟨Nat.zero_le _, Nat.zero_le _⟩

/-- Only what a step says it takes away is taken. -/
theorem livePending_of_liveBut {gone : List SubscriberId} (h : s.LiveBut gone)
    (hstays : ∀ id ∈ s.node.state.subscribers.keys, id ∉ gone → (s.node.cells id).live →
      id ∈ s'.node.state.subscribers.keys ∧ (s'.node.cells id).live) : s'.LivePending := by
  obtain ⟨id, hid, hgone, hlive⟩ := h
  obtain ⟨hid', hlive'⟩ := hstays id hid hgone hlive
  exact ⟨id, hid', List.not_mem_nil, hlive'⟩

theorem Covered.of_counts {wakes joins : ℕ} (h : s.Covered wakes joins)
    (hwaiters : s'.flush.waiters = s.flush.waiters) (hpermit : s'.flush.permits = s.flush.permits)
    (hawait : s'.awaiting ≤ s.awaiting + joins) (hsignal : s.signalling + wakes ≤ s'.signalling) :
    s'.Covered 0 0 := by
  obtain ⟨hone, hall⟩ := h
  refine ⟨by omega, ?_⟩
  rw [hwaiters, hpermit]
  omega

theorem awake_call {a : NodeAction} (h : Awake s) (hg : s.Mindful (.call a))
    (hst : s.call b o a = some s') : Awake s' := by
  obtain ⟨n, hn, helse, -, rfl⟩ := call_cases hst
  have hf := callFrame_of_step helse hn
  have hmind : s.LiveBut (removed s.node a) ∨ s.Covered 0 0 := by
    by_cases hrem : removed s.node a = []
    · rw [hrem]; exact h
    · exact hg ⟨removed s.node a, 0, 0⟩ (by simp [losses, hrem])
  rcases hmind with hlive | hcov
  · -- whoever is not removed is as live and pending as before
    left
    exact livePending_of_liveBut hlive fun id hid hgone hl => ⟨hf.stays id hid hgone, hl⟩
  · right
    refine hcov.of_counts rfl rfl le_rfl ?_
    simp [signalling]

theorem awake_doWork (hs : Sound o s) (h : Awake s) (hst : s.doWork = some s') : Awake s' := by
  unfold doWork at hst
  split at hst
  · cases hst
  · next id op rest hwork =>
    cases hst
    rcases h with hlive | hcov
    · left
      refine livePending_of_liveBut hlive fun id' hid' _ hl => ⟨hid', ?_⟩
      by_cases heq : id' = id
      · subst heq
        simp only [setCell, Function.update_self]
        refine live_exec ?_ hl
        by_contra hclose
        exact hs.closing id' op (by rw [hwork]; exact List.mem_cons_self) (by simpa using hclose) hid'
      · simp only [setCell, Function.update_of_ne heq]
        exact hl
    · exact .inr (hcov.of_counts rfl rfl le_rfl le_rfl)

/-- A signal wakes one parked caller or leaves a permit: it covers what it is
spent on. -/
theorem covered_signal {k : ℕ} {id : SubscriberId} {pc pc' : DrainPc} {c' : Cell}
    (hk : s.tasks[k]? = some (id, pc)) (hsig : pc.signals = true) (hsig' : pc'.signals = false)
    (h : s.Covered 0 0) :
    Covered { s.setCell id c' with
      tasks := s.tasks.set k (id, pc'), flush := s.flush.notifyOne } 0 0 := by
  obtain ⟨hone, hall⟩ := h
  have hcount := countP_set_add (p := fun task => task.2.signals) (id, pc') hk
  simp only [hsig, hsig', if_true, Bool.false_eq_true, if_false] at hcount
  refine ⟨hone, Notify.notifyOne_covers hone ?_⟩
  simp only [signalling] at hall
  show s.flush.waiters.length + s.awaiting ≤
    (s.tasks.set k (id, pc')).countP (fun task => task.2.signals) + 1 + s.flush.permits
  omega

theorem awake_drain {k : ℕ} {e : LinkEvent} (hs : Sound o s) (h : Awake s)
    (hg : s.Mindful (.drain k e)) (hst : s.drain k e = some s') : Awake s' := by
  unfold drain at hst
  split at hst
  · cases hst
  · next id pc hk =>
    rw [Option.map_eq_some_iff] at hst
    obtain ⟨⟨c', pc'⟩, hd, rfl⟩ := hst
    have hflight := hs.flights _ (List.mem_of_getElem? hk)
    have hcount := countP_set_add (p := fun task => task.2.signals) (id, pc') hk
    have hsignals := signals_drainStep hd
    -- the other lanes are as they were
    have hothers : ∀ {gone : List SubscriberId}, id ∈ gone → s.LiveBut gone →
        LivePending { s.setCell id c' with
          tasks := s.tasks.set k (id, pc')
          flush := if pc.signals = true then s.flush.notifyOne else s.flush } := by
      intro gone hgone hlive
      refine livePending_of_liveBut hlive fun id' hid' hnot hl => ⟨hid', ?_⟩
      have hne : id' ≠ id := by
        rintro rfl
        exact hnot hgone
      simp only [setCell, Function.update_of_ne hne]
      exact hl
    by_cases hempties : pc.empties (s.node.cells id) = true
    · -- the end of an emit over an empty queue: a signal follows
      have hpc : ∃ lost, pc = .settle lost := by
        cases pc <;> simp [DrainPc.empties] at hempties ⊢
      obtain ⟨lost, rfl⟩ := hpc
      have hsettle : (DrainPc.settle lost).signals = false := rfl
      have hmind := hg ⟨[id], 1, 0⟩ (by
        simp only [losses, hk]
        simp only [DrainPc.empties] at hempties
        simp [hempties])
      rw [hempties] at hsignals
      rcases hmind with hlive | hcov
      · exact .inl (hothers (List.mem_singleton.mpr rfl) hlive)
      · right
        simp only [hsettle, hsignals, Bool.false_eq_true, if_false, if_true] at hcount
        refine hcov.of_counts rfl rfl le_rfl ?_
        simp only [signalling]
        omega
    · have hempties : pc.empties (s.node.cells id) = false := by simpa using hempties
      rw [hempties] at hsignals
      by_cases hcloses : pc.closes = true
      · have hpc : pc = .storeClosed := by
          cases pc <;> simp [DrainPc.closes] at hcloses ⊢
        subst hpc
        have hstore : DrainPc.storeClosed.signals = false := rfl
        have hmind := hg ⟨[id], 0, 0⟩ (by simp [losses, hk])
        rcases hmind with hlive | hcov
        · exact .inl (hothers (List.mem_singleton.mpr rfl) hlive)
        · right
          simp only [hstore, hsignals, Bool.false_eq_true, if_false] at hcount
          refine hcov.of_counts rfl rfl le_rfl ?_
          simp only [signalling]
          omega
      · rcases h with hlive | hcov
        · left
          refine livePending_of_liveBut hlive fun id' hid' _ hl => ⟨hid', ?_⟩
          by_cases heq : id' = id
          · subst heq
            simp only [setCell, Function.update_self]
            exact live_drainStep hflight hd hempties (by simpa using hcloses) hl
          · simp only [setCell, Function.update_of_ne heq]
            exact hl
        · right
          by_cases hsig : pc.signals = true
          · simp only [hsig, if_true]
            exact covered_signal hk hsig hsignals hcov
          · simp only [hsig, hsignals, Bool.false_eq_true, if_false] at hcount ⊢
            refine hcov.of_counts rfl rfl le_rfl ?_
            simp only [signalling]
            omega

/-- A caller that does not start to wait changes no count. -/
theorem awake_setCaller {j : ℕ} {pc pc' : FlushedPc} (h : Awake s) (hj : s.callers[j]? = some pc)
    (hpc : pc.awaits = false) (hpc' : pc'.awaits = false) : Awake (s.setCaller j pc') := by
  rcases h with hlive | hcov
  · exact .inl hlive
  · right
    have hcount := countP_set_add (p := FlushedPc.awaits) pc' hj
    simp only [hpc, hpc', Bool.false_eq_true, if_false] at hcount
    refine hcov.of_counts rfl rfl ?_ le_rfl
    simp only [awaiting, setCaller]
    omega

theorem awake_caller {j : ℕ} (hs : Sound o s) (h : Awake s) (hg : s.Mindful (.caller j))
    (hst : s.caller j = some s') : Awake s' := by
  unfold caller at hst
  split at hst
  · cases hst
  · next hj =>
    split at hst
    · cases hst; exact awake_setCaller h hj rfl rfl
    · cases hst
  · next hj => cases hst; exact awake_setCaller h hj rfl rfl
  · next id todo hj =>
    cases hst
    refine awake_setCaller h hj rfl ?_
    split <;> rfl
  · next id todo hj =>
    cases hst
    split
    · next hpending =>
      -- the caller starts to wait
      by_cases hclosed : (s.node.cells id).closed = true
      · have hmind := hg ⟨[], 0, 1⟩ (by simp [losses, hj, hclosed, hpending])
        rcases hmind with hlive | hcov
        · exact .inl hlive
        · right
          have hcount := countP_set_add (p := FlushedPc.awaits) .await hj
          simp only [FlushedPc.awaits, Bool.false_eq_true, if_false, if_true] at hcount
          refine hcov.of_counts rfl rfl ?_ le_rfl
          simp only [awaiting, setCaller]
          omega
      · left
        have hscan := hs.scans _ (List.mem_of_getElem? hj) rfl
        have hopen : (s.node.cells id).closed = false := by simpa using hclosed
        exact ⟨id, hscan.2 id List.mem_cons_self, List.not_mem_nil, hopen, hpending⟩
    · exact awake_setCaller h hj rfl rfl
  · next hj =>
    -- it takes the permit or parks
    have hmoved : ∃ pc, pc.awaits = false ∧
        s' = { s.setCaller j pc with flush := (s.flush.await j).2 } := by
      split at hst
      · next n hn => cases hst; exact ⟨.start, rfl, by rw [hn]⟩
      · next n hn => cases hst; exact ⟨.parked, rfl, by rw [hn]⟩
    obtain ⟨pc, hpc, rfl⟩ := hmoved
    rcases h with hlive | hcov
    · exact .inl hlive
    · right
      obtain ⟨hone, hall⟩ := hcov
      have hcount := countP_set_add (p := FlushedPc.awaits) pc hj
      have hawait : FlushedPc.await.awaits = true := rfl
      simp only [hawait, hpc, if_true, Bool.false_eq_true, if_false] at hcount
      simp only [awaiting] at hone hall
      refine ⟨?_, Notify.await_covers j ?_⟩
      · simp only [awaiting, setCaller]
        omega
      · show s.flush.waiters.length + ((s.callers.set j pc).countP FlushedPc.awaits + 1) ≤
          s.signalling + s.flush.permits
        omega
  · next hj =>
    split at hst
    · cases hst; exact awake_setCaller h hj rfl rfl
    · cases hst
  · cases hst

/-- **The step lemma**: a mindful step leaves a live subscriber pending or the
callers covered. -/
theorem awake_step {a : FlushAction} (hs : Sound o s) (h : Awake s) (hg : s.Mindful a)
    (hst : s.step b o a = some s') : Awake s' := by
  cases a with
  | call a => exact awake_call h hg hst
  | work => exact awake_doWork hs h hst
  | drain k e => exact awake_drain hs h hg hst
  | flushed =>
    cases hst
    rcases h with hlive | hcov
    · exact .inl hlive
    · refine .inr (hcov.of_counts rfl rfl ?_ le_rfl)
      simp [awaiting, FlushedPc.awaits]
  | caller j => exact awake_caller hs h hg hst

theorem awake_of_reaches (h : Reaches (step b o) Mindful init s) : Sound o s ∧ Awake s :=
  h.invariant (I := fun s => Sound o s ∧ Awake s) ⟨sound_init o, awake_init⟩
    fun _ _ _ _ hi hg hst => ⟨sound_step hi.1 hst, awake_step hi.1 hi.2 hg hst⟩

/-! ### Nobody sleeps over nothing -/

/-- In a quiet state a parked caller is one the notification has not released, and
no signal and no poll is under way. -/
theorem quiet_counts (h : s.Quiet) : s.signalling = 0 ∧ s.awaiting = 0 := by
  refine ⟨?_, ?_⟩
  · rw [signalling, List.countP_eq_zero]
    intro task htask hsig
    have hidle := h.1 task htask
    obtain ⟨id, pc⟩ := task
    cases pc <;> simp [DrainPc.signals, idle] at hsig hidle
  · rw [awaiting, List.countP_eq_zero]
    intro pc hpc hawaits
    obtain ⟨j, hj⟩ := List.mem_iff_getElem?.mp hpc
    have hnone := h.2 j (List.getElem?_eq_some_iff.mp hj).1
    have hpc : pc = .await := by
      cases pc <;> simp [FlushedPc.awaits] at hawaits ⊢
    subst hpc
    simp only [caller, hj, Option.isNone_iff_eq_none] at hnone
    split at hnone <;> cases hnone

/-- **In mindful runs nobody sleeps over nothing.**  In every reachable state in
which no drain task and no caller can move, a caller is parked only if some
registered, not closed subscriber still has a queued or in-flight update. -/
theorem flushed_parks_only_over_pending (b : FrameBuilder) (o : RegistryOptions) (s : FlushSys)
    (hreach : Reaches (step b o) Mindful init s) (hquiet : s.Quiet) (j : ℕ)
    (hj : s.callers[j]? = some .parked) : s.LivePending := by
  obtain ⟨hs, hlive | ⟨-, hall⟩⟩ := awake_of_reaches hreach
  · exact hlive
  · exfalso
    obtain ⟨hsignal, hawait⟩ := quiet_counts hquiet
    rw [hsignal, hawait] at hall
    have hnone := hquiet.2 j (List.getElem?_eq_some_iff.mp hj).1
    have hwaits : j ∈ s.flush.waiters := by
      by_contra hnot
      simp [caller, hj, Notify.released, hnot] at hnone
    have hpos : 0 < s.flush.waiters.length := List.length_pos_of_mem hwaits
    have hpermit : s.flush.permit = true := by
      by_contra hp
      simp only [Notify.permits, if_neg hp] at hall
      omega
    rw [hs.settled hpermit] at hwaits
    cases hwaits

/-- One subscriber whose drain task is inside an emit. -/
def pendingRun (t : Topic) : List FlushAction :=
  (Node.subscribing t).map .call ++
    [.call .deliverCheck, .call (.deliverBody t 1 [] fun _ => dropOldest), .work, .work,
      .drain 0 .accepted, .drain 0 .accepted]

/-- A call of `flushed` that finds it pending and parks. -/
def parkingRun (j : ℕ) : List FlushAction := .flushed :: List.replicate 4 (.caller j)

/-- A caller parked over an update in flight. -/
theorem flushed_parks_over_emit :
    ∃ s, Reaches (step .total .default) Mindful init s ∧ s.Quiet ∧
      s.callers[0]? = some .parked ∧ s.LivePending := by
  have hrun : (runs (restrict (step .total .default) Mindful) init
      (pendingRun Topic.prices ++ parkingRun 0)).map (fun s => (decide s.Quiet, s.callers[0]?)) =
      some (true, some .parked) := by
    decide +kernel
  obtain ⟨s, hrun, hobs⟩ := Option.map_eq_some_iff.mp hrun
  simp only [Prod.mk.injEq, decide_eq_true_eq] at hobs
  obtain ⟨hquiet, hparked⟩ := hobs
  have hreach : Reaches (step .total .default) Mindful init s := Reaches.of_runs _ .start hrun
  exact ⟨s, hreach, hquiet, hparked,
    flushed_parks_only_over_pending .total .default s hreach hquiet 0 hparked⟩

/-- Two callers park, the emit ends, its one signal wakes the first caller, and the
drain task goes on to park. -/
def sleepingRun (t : Topic) : List FlushAction :=
  pendingRun t ++ parkingRun 0 ++ parkingRun 1 ++ List.replicate 11 (.drain 0 .accepted) ++
    List.replicate 5 (.caller 0)

/-- **Of two callers one is woken and the other sleeps on**: the queue is empty,
nothing is in flight and no step of a drain task or a caller is left. -/
theorem flushed_sleeps_on :
    ¬ ∀ (b : FrameBuilder) (o : RegistryOptions) (s : FlushSys), Reachable (step b o) init s →
      s.Quiet → ∀ j : ℕ, s.callers[j]? = some .parked → s.LivePending := by
  intro h
  have hrun : (runs (step .total .default) init (sleepingRun Topic.prices)).map (fun s =>
      (decide s.Quiet, s.callers[1]?, decide s.LivePending)) = some (true, some .parked, false) := by
    decide +kernel
  obtain ⟨s, hrun, hobs⟩ := Option.map_eq_some_iff.mp hrun
  simp only [Prod.mk.injEq, decide_eq_true_eq, decide_eq_false_iff_not] at hobs
  obtain ⟨hquiet, hparked, hnone⟩ := hobs
  exact hnone (h .total .default s (.of_runs hrun) hquiet 1 hparked)

end FlushSys
end Pubsub
end TightbeamExt
