import Mathlib.Order.Interval.Finset.Nat
import TightbeamExt.Base.Log
import TightbeamExt.Pubsub.Drain

/-!
# The balance of a lane

Every update handed to a lane is acknowledged by the peer, counted in `dropped`,
queued, or in flight.  The three places that count a drop do it outside the lane
lock — an eviction and a refused update after `push` let the lock go, a refusal by
the peer before `in_flight` is cleared — so the balance is off while such a step is
under way, and only then.

`LaneSys` is the subscriber of `DrainSys` together with the answers its emits got.

## Main definitions

* `Emit`, `LaneSys` — the answers, in order, beside the subscriber they were given to.
* `Orderly` — the condition on the steps: orders rise, the policy never disconnects,
  the link stays up and nobody calls `finish`.
* `LaneSys.owed`, `DrainPc.settling` — the steps under way that the balance waits for.
* `Balanced` — the invariant.

## Main results

* `balance` — the law at every state, with what is under way on both sides.
* `lane_conserves_and_orders` — **conservation and order of one lane**, over every
  interleaving.
-/

namespace TightbeamExt
namespace Pubsub

open Transition

/-! ### The subscriber with its emits -/

/-- The step is the `fetch_add` on `dropped`. -/
def CellOp.countsDrop : CellOp → Bool
  | .countDrop => true
  | _ => false

/-- The update the task is emitting. -/
def DrainPc.carried : DrainPc → List Frame
  | .emit f => [f]
  | .slotWait f => [f]
  | _ => []

/-- The emit ended and `in_flight` is not cleared yet. -/
def DrainPc.settling : DrainPc → Bool
  | .settle _ => true
  | _ => false

/-- An emit and what the link answered. -/
structure Emit where
  /-- The update. -/
  update : Frame
  /-- The answer. -/
  answer : LinkEvent
  deriving DecidableEq, Repr

/-- A subscriber and the emits its task made. -/
structure LaneSys where
  /-- The cell, the task and the calls. -/
  sys : DrainSys
  /-- The emits, oldest first. -/
  emits : List Emit

namespace LaneSys

/-- A fresh subscriber. -/
def init : LaneSys := ⟨DrainSys.init, []⟩

/-- The emit a step ends. -/
def answered : DrainAction → DrainPc → List Emit
  | .drain e, .emit f => [⟨f, e⟩]
  | _, _ => []

/-- One step of the system. -/
def step (capacity : ℕ) (topic : Topic) (s : LaneSys) (a : DrainAction) : Option LaneSys :=
  (s.sys.step capacity topic a).map fun s' => ⟨s', s.emits ++ answered a s.sys.pc⟩

/-- The history of the lane. -/
def history (s : LaneSys) : History := s.sys.cell.history

/-- The updates the peer acknowledged. -/
def acked (s : LaneSys) : List Frame :=
  (s.emits.filter fun e => e.answer = .accepted).map Emit.update

/-- The updates the peer refused. -/
def rejected (s : LaneSys) : List Frame :=
  (s.emits.filter fun e => e.answer = .refused).map Emit.update

/-- The updates that went out on a stream.  `StreamsExhausted` says that there was
none to open. -/
def emitted (s : LaneSys) : List Frame :=
  (s.emits.filter fun e => e.answer ≠ .streamsExhausted).map Emit.update

/-- The drops that running calls have yet to count. -/
def owed (s : LaneSys) : ℕ := (s.sys.calls.map (List.countP CellOp.countsDrop)).sum

/-- Outside every critical step: no call owes a drop and the task is not between the
end of an emit and the clearing of `in_flight`. -/
def Between (s : LaneSys) : Prop := s.owed = 0 ∧ s.sys.pc.settling = false

instance (s : LaneSys) : Decidable s.Between := inferInstanceAs (Decidable (_ ∧ _))

/-- The condition on a step.  Updates come stamped with rising orders from 1 on, as
the contract of the backplane has it; the policy may drop but not disconnect; the
link may refuse and run out of streams but is not lost. -/
def Orderly (capacity : ℕ) (topic : Topic) (s : LaneSys) : DrainAction → Prop
  | .push onFull update =>
      s.sys.cell.offered capacity onFull topic ≠ .disconnect ∧
        (1 ≤ update.order ∧ update.order < 2 ^ 64) ∧
        ∀ f ∈ s.history.handed, f.order < update.order
  | .finish _ => False
  | .call _ => True
  | .drain e => e.lost = false

instance (capacity : ℕ) (topic : Topic) (s : LaneSys) :
    (a : DrainAction) → Decidable (Orderly capacity topic s a)
  | .push _ _ => inferInstanceAs (Decidable (_ ∧ _ ∧ _))
  | .finish _ => isFalse id
  | .call _ => isTrue trivial
  | .drain e => inferInstanceAs (Decidable (e.lost = false))

end LaneSys

/-! ### What one lane holds -/

namespace Cell

/-- The updates of a lane that only `push` fills, with rising orders. -/
structure Kept (c : Cell) : Prop where
  /-- What entered the queue is in it, was evicted or was popped. -/
  conserved : c.Conserved
  /-- What was handed to the lane entered it or was kept out. -/
  handed : c.history.handed.Perm (c.history.refused ++ c.history.enqueued.map Sent.frame)
  /-- The popped and the queued updates stand in the order they were handed in. -/
  ordered : (c.history.popped ++ c.lane.queue).Sublist c.history.handed
  /-- The orders rise. -/
  rising : c.history.handed.Pairwise fun f g => f.order < g.order
  /-- They are 64-bit stamps from 1 on. -/
  stamps : ∀ f ∈ c.history.handed, 1 ≤ f.order ∧ f.order < 2 ^ 64

theorem kept_new : new.Kept where
  conserved := conserved_new
  handed := List.Perm.nil
  ordered := List.Sublist.slnil
  rising := List.Pairwise.nil
  stamps := by intro f h; cases h

/-- The queue and the logs decide whether a lane is kept. -/
theorem Kept.of_same {c c' : Cell} (h : c.Kept) (hq : c'.lane.queue = c.lane.queue)
    (hh : c'.history = c.history) : c'.Kept := by
  obtain ⟨h₁, h₂, h₃, h₄, h₅⟩ := h
  refine ⟨?_, ?_, ?_, ?_, ?_⟩
  · unfold Conserved
    rw [hq, hh]
    exact h₁
  · rw [hh]
    exact h₂
  · rw [hq, hh]
    exact h₃
  · rw [hh]
    exact h₄
  · rw [hh]
    exact h₅

theorem Kept.stamps_hand {c : Cell} (h : c.Kept) {f : Frame}
    (hf : 1 ≤ f.order ∧ f.order < 2 ^ 64) :
    ∀ g ∈ c.history.handed ++ [f], 1 ≤ g.order ∧ g.order < 2 ^ 64 := by
  intro g hg
  rcases List.mem_append.mp hg with hg | hg
  · exact h.stamps g hg
  · rw [List.mem_singleton.mp hg]
    exact hf

/-- The critical section of `push` keeps the lane. -/
theorem Kept.offer {c : Cell} (h : c.Kept) {f : Frame} {o : Offer} (ho : o ≠ .disconnect)
    (hstamp : 1 ≤ f.order ∧ f.order < 2 ^ 64)
    (hf : ∀ g ∈ c.history.handed, g.order < f.order) : (c.offer f o).Kept := by
  have hperm := h.handed.append_right [f]
  cases o with
  | queued =>
    refine ⟨h.conserved.offer f .queued, ?_, ?_, List.pairwise_concat h.rising hf, h.stamps_hand hstamp⟩
    · simpa [Cell.offer, Cell.enqueue, Cell.hand] using hperm
    · have hsub := h.ordered.append (List.Sublist.refl [f])
      simpa [Cell.offer, Cell.enqueue, Cell.hand] using hsub
  | replaced =>
    refine ⟨h.conserved.offer f .replaced, ?_, ?_, List.pairwise_concat h.rising hf, h.stamps_hand hstamp⟩
    · simpa [Cell.offer, Cell.enqueue, Cell.evict, Cell.hand] using hperm
    · -- the queue loses its head and gains the new update
      have htail : (c.history.popped ++ c.lane.queue.tail).Sublist c.history.handed :=
        ((List.Sublist.refl _).append (List.tail_sublist _)).trans h.ordered
      have hsub := htail.append (List.Sublist.refl [f])
      simpa [Cell.offer, Cell.enqueue, Cell.evict, Cell.hand] using hsub
  | refused =>
    refine ⟨h.conserved.offer f .refused, ?_, ?_, List.pairwise_concat h.rising hf, h.stamps_hand hstamp⟩
    · simp only [Cell.offer, Cell.refuse, Cell.hand]
      refine hperm.trans ?_
      rw [List.append_assoc, List.append_assoc]
      exact List.Perm.append_left _ List.perm_append_comm
    · exact h.ordered.trans (List.sublist_append_left _ _)
  | disconnect => exact absurd rfl ho

/-- The pop moves the head of the queue. -/
theorem Kept.take {c : Cell} (h : c.Kept) {f : Frame} {q : List Frame}
    (hq : c.lane.queue = f :: q) :
    ({ c with
        lane := ⟨q, true⟩
        history := { c.history with popped := c.history.popped ++ [f] } } : Cell).Kept := by
  have hpop := h.conserved.pop
  unfold Cell.pop at hpop
  rw [hq] at hpop
  refine ⟨hpop, h.handed, ?_, h.rising, h.stamps⟩
  have hord := h.ordered
  rw [hq] at hord
  simpa using hord

/-- Fewer updates than 64-bit stamps were handed to the lane. -/
theorem Kept.handed_length {c : Cell} (h : c.Kept) : c.history.handed.length < 2 ^ 64 := by
  have hnodup : (c.history.handed.map Frame.order).Nodup := by
    have hlt : (c.history.handed.map Frame.order).Pairwise (· < ·) :=
      List.pairwise_map.mpr h.rising
    exact hlt.imp Nat.ne_of_lt
  have hsub : (c.history.handed.map Frame.order).toFinset ⊆ Finset.Ico 1 (2 ^ 64) := by
    intro n hn
    rw [List.mem_toFinset, List.mem_map] at hn
    obtain ⟨f, hf, rfl⟩ := hn
    exact Finset.mem_Ico.mpr (h.stamps f hf)
  have hcard := Finset.card_le_card hsub
  rw [List.toFinset_card_of_nodup hnodup, List.length_map, Nat.card_Ico] at hcard
  omega

/-- The updates handed to the lane, by what became of them. -/
theorem Kept.count {c : Cell} (h : c.Kept) :
    c.history.handed.length = c.history.refused.length + c.history.evicted.length +
      c.history.popped.length + c.lane.queue.length := by
  have h₁ := h.handed.length_eq
  have h₂ := h.conserved.length_eq
  simp only [List.length_append, List.length_map] at h₁ h₂
  omega

/-- No update was both evicted and popped. -/
theorem Kept.not_evicted {c : Cell} (h : c.Kept) {f : Frame} (hf : f ∈ c.history.popped) :
    f ∉ c.history.evicted := by
  have hnodup : c.history.handed.Nodup :=
    h.rising.imp fun hlt heq => by rw [heq] at hlt; exact Nat.lt_irrefl _ hlt
  have hall := h.handed.nodup_iff.mp hnodup
  have hin := h.conserved.nodup_iff.mp hall.of_append_right
  intro hev
  exact List.disjoint_of_nodup_append hin hev (List.mem_append_left _ hf)

end Cell

/-! ### The invariant -/

/-- The emit came before the update: at a lower order, or as an attempt at it that
found no stream. -/
def Emit.Before (e : Emit) (f : Frame) : Prop :=
  e.update.order < f.order ∨ e.update = f ∧ e.answer = .streamsExhausted

/-- What a live link answers to an emit. -/
def Emit.Answered (e : Emit) : Prop :=
  e.answer = .accepted ∨ e.answer = .streamsExhausted ∨ e.answer = .refused

namespace LaneSys

/-- What holds of a subscriber along every orderly run. -/
structure Balanced (s : LaneSys) : Prop where
  /-- The queue and its logs agree. -/
  kept : s.sys.cell.Kept
  /-- A running call has a drop to count and a wake-up to give, nothing else. -/
  calls : ∀ ops ∈ s.sys.calls, ∀ op ∈ ops, op = .countDrop ∨ op = .wake
  /-- Every lost update is counted or about to be. -/
  tally : s.sys.cell.dropped + s.owed =
    s.history.refused.length + s.history.evicted.length + s.rejected.length
  /-- Every popped update went out or is being emitted. -/
  popped : s.history.popped = s.emitted ++ s.sys.pc.carried
  /-- `in_flight` is set from the pop until the emit settles. -/
  flag : s.sys.cell.lane.inFlight = (s.sys.pc.settling || !s.sys.pc.carried.isEmpty)
  /-- Emits follow one another in stamp order. -/
  attempts : s.emits.Pairwise fun a b => a.Before b.update
  /-- And precede the update being emitted. -/
  current : ∀ e ∈ s.emits, ∀ f ∈ s.sys.pc.carried, e.Before f
  /-- Only popped updates were emitted. -/
  known : ∀ e ∈ s.emits, e.update ∈ s.history.popped
  /-- The link was up. -/
  answers : ∀ e ∈ s.emits, e.Answered

theorem balanced_init : Balanced init where
  kept := Cell.kept_new
  calls := by intro ops h; cases h
  tally := rfl
  popped := rfl
  flag := rfl
  attempts := List.Pairwise.nil
  current := by intro e h; cases h
  known := by intro e h; cases h
  answers := by intro e h; cases h

/-- An emit that went out was acknowledged or refused. -/
theorem emitted_length {s : LaneSys} (h : ∀ e ∈ s.emits, e.Answered) :
    s.emitted.length = s.acked.length + s.rejected.length := by
  unfold emitted acked rejected
  simp only [List.length_map]
  generalize s.emits = emits at h
  induction emits with
  | nil => rfl
  | cons e emits ih =>
    have hrest := ih fun e' he' => h e' (List.mem_cons_of_mem _ he')
    simp only [ne_eq, decide_not] at hrest ⊢
    rcases h e List.mem_cons_self with he | he | he <;> simp [he] <;> omega

/-- What the drain popped was answered or is still carried. -/
theorem Balanced.popped_length {s : LaneSys} (h : s.Balanced) :
    s.history.popped.length = s.acked.length + s.rejected.length + s.sys.pc.carried.length := by
  rw [h.popped, List.length_append, emitted_length h.answers]

/-- **The law at every state.**  What is under way stands on both sides: an update
whose emit ended is counted twice until `in_flight` is cleared, and a drop that a call
still owes is not in the counter. -/
theorem balance {s : LaneSys} (h : s.Balanced) :
    s.history.handed.length + s.sys.pc.settling.toNat =
      s.acked.length + s.sys.cell.dropped + s.owed + s.sys.cell.lane.queue.length +
        s.sys.cell.lane.inFlight.toNat := by
  have hcount := h.kept.count
  have htally := h.tally
  have hpopped := h.popped_length
  have hflag : s.sys.cell.lane.inFlight.toNat =
      s.sys.pc.settling.toNat + s.sys.pc.carried.length := by
    rw [h.flag]
    cases s.sys.pc <;> rfl
  unfold history at htally hpopped ⊢
  omega

/-- The counter has not wrapped, nor does the next drop wrap it. -/
theorem Balanced.dropped_lt {s : LaneSys} (h : s.Balanced) :
    s.sys.cell.dropped + s.owed + s.sys.pc.carried.length < 2 ^ 64 := by
  have hcount := h.kept.count
  have hhanded := h.kept.handed_length
  have htally := h.tally
  have hpopped := h.popped_length
  unfold history at htally hpopped
  omega

theorem fetchAdd_of_lt {n : ℕ} (h : n + 1 < 2 ^ 64) : fetchAdd n = n + 1 := Nat.mod_eq_of_lt h

/-! ### The calls -/

theorem owed_append (calls : List (List CellOp)) (ops : List CellOp) :
    ((calls ++ [ops]).map (List.countP CellOp.countsDrop)).sum =
      (calls.map (List.countP CellOp.countsDrop)).sum + ops.countP CellOp.countsDrop := by
  simp

/-- What the other calls owe does not change. -/
theorem owed_set {calls : List (List CellOp)} {i : ℕ} {ops : List CellOp}
    (h : calls[i]? = some ops) (ops' : List CellOp) :
    ((calls.set i ops').map (List.countP CellOp.countsDrop)).sum +
        ops.countP CellOp.countsDrop =
      (calls.map (List.countP CellOp.countsDrop)).sum + ops'.countP CellOp.countsDrop := by
  induction calls generalizing i with
  | nil => cases h
  | cons first calls ih =>
    cases i with
    | zero =>
      rw [List.getElem?_cons_zero, Option.some.injEq] at h
      subst h
      simp only [List.set_cons_zero, List.map_cons, List.sum_cons]
      omega
    | succ i =>
      rw [List.getElem?_cons_succ] at h
      have hrest := ih h
      simp only [List.set_cons_succ, List.map_cons, List.sum_cons]
      omega

/-- A full lane of capacity at least 1 has an update to evict. -/
theorem queue_ne_nil_of_replaced {capacity : ℕ} (hcap : 1 ≤ capacity) {onFull : DeliveryPolicy}
    {topic : Topic} {c : Cell} (h : c.offered capacity onFull topic = .replaced) :
    c.lane.queue ≠ [] := by
  intro hnil
  unfold Cell.offered at h
  rw [hnil, List.length_nil, if_pos (Nat.lt_of_lt_of_le Nat.zero_lt_one hcap)] at h
  cases h

variable {capacity : ℕ} {topic : Topic}

/-- What the critical section of `push` loses is what the call will count. -/
theorem tally_offer (hcap : 1 ≤ capacity) (topic : Topic) (onFull : DeliveryPolicy)
    (update : Frame) (c : Cell) :
    let op := CellOp.offer capacity onFull topic update
    (op.exec c).history.refused.length + (op.exec c).history.evicted.length =
      c.history.refused.length + c.history.evicted.length +
        (op.followUps c).countP CellOp.countsDrop := by
  simp only [CellOp.exec, CellOp.followUps]
  cases ho : c.offered capacity onFull topic with
  | queued => rfl
  | replaced =>
    have hne := queue_ne_nil_of_replaced hcap ho
    obtain ⟨f, q, hq⟩ := List.exists_cons_of_ne_nil hne
    have hcounts : [CellOp.countDrop, CellOp.wake].countP CellOp.countsDrop = 1 := rfl
    simp only [Cell.offer, Cell.evict, Cell.hand, Cell.enqueue, hq, hcounts, List.length_append,
      List.take_succ_cons, List.take_zero, List.length_singleton]
    omega
  | refused =>
    have hcounts : [CellOp.countDrop].countP CellOp.countsDrop = 1 := rfl
    simp only [Cell.offer, Cell.refuse, Cell.hand, hcounts, List.length_append,
      List.length_singleton]
    omega
  | disconnect => rfl

/-- The rest of a `push`. -/
theorem followUps_offer {onFull : DeliveryPolicy} {update : Frame} {c : Cell} {op : CellOp}
    (h : op ∈ (CellOp.offer capacity onFull topic update).followUps c) :
    op = .countDrop ∨ op = .wake := by
  simp only [CellOp.followUps] at h
  cases ho : c.offered capacity onFull topic <;> simp [ho] at h
  · exact .inr h
  · exact h
  · exact .inl h

theorem popped_offer (f : Frame) (c : Cell) (o : Cell.Offer) :
    (c.offer f o).history.popped = c.history.popped := by
  cases o <;> rfl

theorem dropped_offer (f : Frame) (c : Cell) (o : Cell.Offer) :
    (c.offer f o).dropped = c.dropped := by
  cases o <;> rfl

theorem inFlight_offer (f : Frame) (c : Cell) (o : Cell.Offer) :
    (c.offer f o).lane.inFlight = c.lane.inFlight := by
  cases o <;> rfl

theorem balanced_push (hcap : 1 ≤ capacity) {s : LaneSys} (h : s.Balanced)
    {onFull : DeliveryPolicy} {update : Frame}
    (hg : Orderly capacity topic s (.push onFull update)) :
    Balanced ⟨s.sys.begin (.offer capacity onFull topic update), s.emits⟩ where
  kept := h.kept.offer hg.1 hg.2.1 hg.2.2
  calls := by
    intro ops hops op hop
    rcases List.mem_append.mp hops with hops | hops
    · exact h.calls ops hops op hop
    · rw [List.mem_singleton] at hops
      subst hops
      exact followUps_offer hop
  tally := by
    have hoffer := tally_offer hcap topic onFull update s.sys.cell
    have htally := h.tally
    simp only [history, owed, DrainSys.begin, owed_append, rejected] at hoffer htally ⊢
    have hdropped : ((CellOp.offer capacity onFull topic update).exec s.sys.cell).dropped =
        s.sys.cell.dropped := dropped_offer _ _ _
    omega
  popped := (popped_offer _ _ _).trans h.popped
  flag := (inFlight_offer _ _ _).trans h.flag
  attempts := h.attempts
  current := h.current
  known := by
    intro e he
    show e.update ∈ (Cell.offer _ _ _).history.popped
    rw [popped_offer]
    exact h.known e he
  answers := h.answers

theorem balanced_call {s : LaneSys} (h : s.Balanced) {i : ℕ} {op : CellOp} {rest : List CellOp}
    (hi : s.sys.calls[i]? = some (op :: rest)) :
    Balanced ⟨{ s.sys with
      cell := op.exec s.sys.cell
      calls := s.sys.calls.set i (op.followUps s.sys.cell ++ rest) }, s.emits⟩ := by
  have hmem := List.mem_of_getElem? hi
  have hcalls : ∀ ops ∈ s.sys.calls.set i rest, ∀ op ∈ ops, op = .countDrop ∨ op = .wake := by
    intro ops hops op' hop'
    rcases List.mem_or_eq_of_mem_set hops with hops | rfl
    · exact h.calls ops hops op' hop'
    · exact h.calls _ hmem op' (List.mem_cons_of_mem _ hop')
  have howed := owed_set hi rest
  have htally := h.tally
  have hlt := h.dropped_lt
  rcases h.calls _ hmem op List.mem_cons_self with rfl | rfl
  · -- the call pays the drop it owes
    have hcons : (CellOp.countDrop :: rest).countP CellOp.countsDrop =
        rest.countP CellOp.countsDrop + 1 := List.countP_cons_of_pos rfl
    have hadd : fetchAdd s.sys.cell.dropped = s.sys.cell.dropped + 1 := by
      apply fetchAdd_of_lt
      unfold owed at hlt
      omega
    refine ⟨h.kept.of_same rfl rfl, hcalls, ?_, h.popped, h.flag, h.attempts, h.current, h.known,
      h.answers⟩
    show fetchAdd s.sys.cell.dropped + ((s.sys.calls.set i rest).map _).sum = _
    rw [hadd]
    unfold owed at htally
    exact (by omega : _ = s.sys.cell.dropped + _).trans htally
  · have hcons : (CellOp.wake :: rest).countP CellOp.countsDrop =
        rest.countP CellOp.countsDrop := List.countP_cons_of_neg (by decide)
    refine ⟨h.kept.of_same rfl rfl, hcalls, ?_, h.popped, h.flag, h.attempts, h.current, h.known,
      h.answers⟩
    show s.sys.cell.dropped + ((s.sys.calls.set i rest).map _).sum = _
    unfold owed at htally
    exact (by omega : _ = s.sys.cell.dropped + _).trans htally

/-! ### The drain task -/

/-- A step of the task that ends no emit and pops nothing. -/
theorem Balanced.moved {s : LaneSys} (h : s.Balanced) {c' : Cell} {pc' : DrainPc}
    (hq : c'.lane.queue = s.sys.cell.lane.queue) (hh : c'.history = s.sys.cell.history)
    (hd : c'.dropped = s.sys.cell.dropped) (hcarried : pc'.carried = s.sys.pc.carried)
    (hflag : c'.lane.inFlight = (pc'.settling || !pc'.carried.isEmpty)) :
    Balanced ⟨{ s.sys with cell := c', pc := pc' }, s.emits⟩ where
  kept := h.kept.of_same hq hh
  calls := h.calls
  tally := by
    simp only [history, hh, hd]
    exact h.tally
  popped := by
    simp only [history, hh, hcarried]
    exact h.popped
  flag := hflag
  attempts := h.attempts
  current := by
    simp only [hcarried]
    exact h.current
  known := by
    simp only [history, hh]
    exact h.known
  answers := h.answers

/-- The pop: the new update is above every emitted one. -/
theorem balanced_take {s : LaneSys} (h : s.Balanced) (hpc : s.sys.pc = .pop) {f : Frame}
    {q : List Frame} (hq : s.sys.cell.lane.queue = f :: q) :
    Balanced ⟨{ s.sys with
      cell := { s.sys.cell with
        lane := ⟨q, true⟩
        history := { s.sys.cell.history with popped := s.sys.cell.history.popped ++ [f] } }
      pc := .emit f }, s.emits⟩ where
  kept := h.kept.take hq
  calls := h.calls
  tally := h.tally
  popped := by
    have hpopped := h.popped
    rw [hpc] at hpopped
    exact congrArg (· ++ [f]) (hpopped.trans (List.append_nil _))
  flag := rfl
  attempts := h.attempts
  current := by
    intro e he g hg
    rw [List.mem_singleton.mp hg]
    -- both stand in the list that was handed in, the popped one first
    have hrising := h.kept.rising.sublist h.kept.ordered
    rw [hq, List.pairwise_append] at hrising
    exact .inl (hrising.2.2 _ (h.known e he) f List.mem_cons_self)
  known := fun e he => List.mem_append_left _ (h.known e he)
  answers := h.answers

/-- The link answered: the log of the emits grows by an attempt at the carried update,
which stays in flight when there was no stream. -/
theorem balanced_answer {s : LaneSys} (h : s.Balanced) {f : Frame} (hpc : s.sys.pc = .emit f)
    {e : LinkEvent} (he : (Emit.mk f e).Answered) {c' : Cell} {pc' : DrainPc}
    (hq : c'.lane.queue = s.sys.cell.lane.queue) (hh : c'.history = s.sys.cell.history)
    (hd : c'.dropped = s.sys.cell.dropped + if e = .refused then 1 else 0)
    (hcarried : pc'.carried = if e = .streamsExhausted then [f] else [])
    (hflag : c'.lane.inFlight = (pc'.settling || !pc'.carried.isEmpty)) :
    Balanced ⟨{ s.sys with cell := c', pc := pc' }, s.emits ++ [⟨f, e⟩]⟩ := by
  have hpopped : s.history.popped = s.emitted ++ [f] := by
    have hlog := h.popped
    rw [hpc] at hlog
    exact hlog
  have hbefore : ∀ a ∈ s.emits, a.Before f := by
    intro a ha
    exact h.current a ha f (by rw [hpc]; exact List.mem_singleton_self f)
  refine ⟨h.kept.of_same hq hh, h.calls, ?_, ?_, hflag, ?_, ?_, ?_, ?_⟩
  · -- only a refusal is counted
    have htally := h.tally
    simp only [history, hh, hd, rejected, owed, List.filter_append, List.map_append,
      List.length_append, List.length_map] at htally ⊢
    rcases he with he | he | he <;> simp only at he <;> subst he <;> simp <;> omega
  · -- without a stream nothing went out, and the update is still carried
    simp only [history, hh, emitted, List.filter_append, List.map_append, hcarried]
    rw [show s.sys.cell.history = s.history from rfl, hpopped, emitted]
    rcases he with he | he | he <;> simp only at he <;> subst he <;> simp
  · exact List.pairwise_concat h.attempts hbefore
  · intro a ha g hg
    simp only [hcarried] at hg
    split at hg
    · -- the next attempt is at the same update
      next hexhausted =>
      rw [List.mem_singleton.mp hg]
      rcases List.mem_append.mp ha with ha | ha
      · exact hbefore a ha
      · rw [List.mem_singleton.mp ha]
        exact .inr ⟨rfl, hexhausted⟩
    · cases hg
  · intro a ha
    simp only [history, hh]
    rw [show s.sys.cell.history = s.history from rfl]
    rcases List.mem_append.mp ha with ha | ha
    · exact h.known a ha
    · rw [List.mem_singleton.mp ha, hpopped]
      exact List.mem_append_right _ (List.mem_singleton_self f)
  · intro a ha
    rcases List.mem_append.mp ha with ha | ha
    · exact h.answers a ha
    · rw [List.mem_singleton.mp ha]
      exact he

/-- A step of the task over a live link keeps the balance. -/
theorem balanced_drain {s : LaneSys} (h : s.Balanced) {e : LinkEvent} (hup : e.lost = false)
    {c' : Cell} {pc' : DrainPc} (hst : drainStep e s.sys.cell s.sys.pc = some (c', pc')) :
    Balanced ⟨{ s.sys with cell := c', pc := pc' }, s.emits ++ answered (.drain e) s.sys.pc⟩ := by
  have hflag := h.flag
  have hmoved := @Balanced.moved s h c' pc'
  generalize hpc : s.sys.pc = pc at hst hflag hmoved
  cases drainMove_of_drainStep hst with
  | take f q hq =>
    simp only [answered, List.append_nil]
    exact balanced_take h hpc hq
  | accepted f => exact balanced_answer h hpc (.inl rfl) rfl rfl rfl rfl hflag
  | exhausted f => exact balanced_answer h hpc (.inr (.inl rfl)) rfl rfl rfl rfl hflag
  | refused f =>
    have hlt := h.dropped_lt
    rw [hpc] at hlt
    have hadd : fetchAdd s.sys.cell.dropped = s.sys.cell.dropped + 1 := by
      apply fetchAdd_of_lt
      simp only [DrainPc.carried, List.length_singleton] at hlt
      omega
    exact balanced_answer h hpc (.inr (.inr rfl)) rfl rfl hadd rfl hflag
  | failed f => cases hup
  | slotLost f => cases hup
  | dry hq =>
    simp only [answered, List.append_nil]
    exact hmoved hq.symm rfl rfl rfl rfl
  | settled lost =>
    simp only [answered, List.append_nil]
    cases lost <;> exact hmoved rfl rfl rfl rfl rfl
  | signal lost =>
    simp only [answered, List.append_nil]
    cases lost <;> exact hmoved rfl rfl rfl rfl hflag
  | emptied lost =>
    simp only [answered, List.append_nil]
    exact hmoved rfl rfl rfl rfl rfl
  | _ =>
    simp only [answered, List.append_nil]
    exact hmoved rfl rfl rfl rfl hflag

/-- **The step lemma.** -/
theorem balanced_step (hcap : 1 ≤ capacity) {s s' : LaneSys} {a : DrainAction} (h : s.Balanced)
    (hg : Orderly capacity topic s a) (hst : s.step capacity topic a = some s') : s'.Balanced := by
  unfold step at hst
  rw [Option.map_eq_some_iff] at hst
  obtain ⟨t, ht, rfl⟩ := hst
  cases a with
  | push onFull update =>
    simp only [DrainSys.step, Option.some.injEq] at ht
    subst ht
    simp only [answered, List.append_nil]
    exact balanced_push hcap h hg
  | finish f => exact hg.elim
  | call i =>
    simp only [DrainSys.step] at ht
    split at ht
    · next op rest hi =>
      simp only [Option.some.injEq] at ht
      subst ht
      simp only [answered, List.append_nil]
      exact balanced_call h hi
    · cases ht
  | drain e =>
    simp only [DrainSys.step, Option.map_eq_some_iff] at ht
    obtain ⟨⟨c', pc'⟩, hd, rfl⟩ := ht
    exact balanced_drain h hg hd

theorem balanced_of_reaches (hcap : 1 ≤ capacity) {s : LaneSys}
    (h : Reaches (step capacity topic) (Orderly capacity topic) init s) : s.Balanced :=
  h.invariant balanced_init fun _ _ _ _ hb hg hst => balanced_step hcap hb hg hst

/-! ### Conservation and order -/

/-- **Conservation and order of one lane.**  In every orderly run of a subscriber whose
queue holds at least one update: outside a critical step the updates handed to the lane
are the acknowledged, the dropped, the queued and the one in flight; the updates that
went out carry strictly rising orders, in the order they were handed in; what is being
emitted was popped, and nothing popped was or will be evicted; and no attempt at an
update follows an acknowledgment of it. -/
theorem lane_conserves_and_orders (capacity : ℕ) (hcap : 1 ≤ capacity) (topic : Topic)
    (s : LaneSys) (h : Reaches (step capacity topic) (Orderly capacity topic) init s) :
    (s.Between → s.history.handed.length = s.acked.length + s.sys.cell.dropped +
      s.sys.cell.lane.queue.length + s.sys.cell.lane.inFlight.toNat) ∧
    ((s.emitted.map Frame.order).Pairwise (· < ·) ∧ s.emitted.Sublist s.history.handed) ∧
    ((∀ f ∈ s.sys.pc.carried, f ∈ s.history.popped) ∧
      ∀ f ∈ s.history.popped, f ∉ s.history.evicted) ∧
    (s.emits.Pairwise (fun a b => a.answer = .accepted → b.update ≠ a.update) ∧
      ∀ f ∈ s.acked, f ∉ s.sys.pc.carried) := by
  have hb := balanced_of_reaches hcap h
  have hsub : s.emitted.Sublist s.history.handed := by
    have hpopped : s.emitted.Sublist s.history.popped := by
      rw [hb.popped]
      exact List.sublist_append_left _ _
    exact hpopped.trans ((List.sublist_append_left _ _).trans hb.kept.ordered)
  -- an acknowledged attempt precedes at a lower order, so at another update
  have hne : ∀ (a : Emit) (f : Frame), a.Before f → a.answer = .accepted → f ≠ a.update := by
    rintro a f (hlt | ⟨-, hex⟩) hacc rfl
    · exact Nat.lt_irrefl _ hlt
    · rw [hacc] at hex
      cases hex
  refine ⟨?_, ⟨?_, hsub⟩, ⟨?_, ?_⟩, ?_, ?_⟩
  · rintro ⟨howed, hsettling⟩
    have hlaw := balance hb
    rw [howed, hsettling] at hlaw
    exact hlaw
  · exact List.pairwise_map.mpr (hb.kept.rising.sublist hsub)
  · intro f hf
    rw [hb.popped]
    exact List.mem_append_right _ hf
  · exact fun f hf => hb.kept.not_evicted hf
  · exact hb.attempts.imp fun hbefore hacc => hne _ _ hbefore hacc
  · intro f hf hcarried
    unfold acked at hf
    rw [List.mem_map] at hf
    obtain ⟨a, ha, rfl⟩ := hf
    rw [List.mem_filter, decide_eq_true_eq] at ha
    exact hne a _ (hb.current a ha.1 _ hcarried) ha.2 rfl

/-- A queue of one: the first update is in flight and waits for a stream, the second is
evicted for the third, the peer refuses the first and acknowledges the third. -/
def evictingRun : List DrainAction :=
  [.push dropOldest ⟨[], 1, []⟩, .call 0, .drain .accepted, .drain .accepted,
    .drain .streamsExhausted, .push dropOldest ⟨[], 2, []⟩, .push dropOldest ⟨[], 3, []⟩,
    .drain .slotFreed, .call 2, .drain .refused, .drain .accepted, .drain .accepted,
    .drain .accepted, .drain .accepted, .drain .accepted]

/-- Three updates were handed in: two dropped, one acknowledged. -/
theorem lane_conserves_evictingRun :
    ∃ s : LaneSys, Reaches (step 1 Topic.prices) (Orderly 1 Topic.prices) init s ∧
      s.Between ∧ s.history.handed.length = 3 ∧ s.sys.cell.dropped = 2 ∧
      s.history.handed.length = s.acked.length + s.sys.cell.dropped +
        s.sys.cell.lane.queue.length + s.sys.cell.lane.inFlight.toNat := by
  have hreach : Reaches (step 1 Topic.prices) (Orderly 1 Topic.prices) init _ :=
    Reaches.of_runs evictingRun .start rfl
  exact ⟨_, hreach, by decide, rfl, rfl,
    (lane_conserves_and_orders 1 (Nat.le_refl 1) Topic.prices _ hreach).1 (by decide)⟩

end LaneSys
end Pubsub
end TightbeamExt
