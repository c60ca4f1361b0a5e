import TightbeamExt.Client.Manager

/-!
# What a step does to the gates and to the calls

A delivery reaches its entry's gate once, when it settles: it commits its stamp, or it
leaves the stamp as witnessed.  Everything else that touches a gate is a new entry and
the reset of a reattach.  This module says so once, for every step of the manager.

## Main definitions

* `Settlement`, `gateOf` — what a gate was told, and the gate that was told only that.
* `SubscriptionManager.settles` — the delivery that settles under an action.
* `SubscriptionManager.gateAfter` — the gate of an entry after an action.
* `Task.carried` — the update a delivery carries.
* `SubscriptionManager.Moved` — where a call goes under an action.

## Main results

* `gate_step` — **every step changes the gates as `gateAfter` says**.
* `moved_step` — **every step moves the calls as `Moved` says**; with it `carried_step`, a
  delivery carries the update it was dispatched with, and `handling_step`.
-/

namespace TightbeamExt
namespace Client

open Transition Pubsub

/-! ### What a gate is told -/

/-- How a delivery ended at the gate. -/
structure Settlement where
  /-- The stamp of its update. -/
  order : ℕ
  /-- It was delivered, and not merely seen. -/
  delivered : Bool
  deriving DecidableEq, Repr

/-- The gate after one settlement. -/
def TopicGate.settle (g : TopicGate) (x : Settlement) : TopicGate :=
  if x.delivered then g.advance x.order else g.witness x.order

/-- A gate that was told these settlements and nothing else. -/
def gateOf (xs : List Settlement) : TopicGate := xs.foldl TopicGate.settle TopicGate.new

@[simp] theorem gateOf_nil : gateOf [] = TopicGate.new := rfl

@[simp] theorem gateOf_append (xs : List Settlement) (x : Settlement) :
    gateOf (xs ++ [x]) = (gateOf xs).settle x := by
  simp [gateOf, List.foldl_append]

/-- A committed baseline forgets what was witnessed. -/
def TopicGate.Tidy (g : TopicGate) : Prop := ∀ last, g.last = some last → g.witnessed = none

theorem TopicGate.Tidy.settle {g : TopicGate} (h : g.Tidy) (x : Settlement) : (g.settle x).Tidy := by
  intro last hlast
  unfold TopicGate.settle at hlast ⊢
  split
  · unfold TopicGate.advance
    split <;> rfl
  · next hseen =>
    rw [if_neg hseen] at hlast
    cases hg : g.last with
    | some l =>
      have hw : g.witness x.order = g := by simp [TopicGate.witness, hg]
      rw [hw]
      exact h l hg
    | none =>
      -- a gate without a baseline does not get one from a witness
      exfalso
      unfold TopicGate.witness at hlast
      rw [hg] at hlast
      simp only at hlast
      split at hlast
      · simp at hlast
      · split at hlast <;> simp [hg] at hlast

theorem tidy_gateOf (xs : List Settlement) : (gateOf xs).Tidy := by
  induction xs using List.reverseRecOn with
  | nil => intro last h; cases h
  | append_singleton xs x ih =>
    rw [gateOf_append]
    exact ih.settle x

/-- The settlement tells the gate nothing new: behind a baseline a witness and a commit
that is not higher, before one a witness that is not lower. -/
def TopicGate.keeps (g : TopicGate) (x : Settlement) : Bool :=
  match g.last, g.witnessed with
  | some last, _ => !x.delivered || decide (x.order ≤ last)
  | none, some w => !x.delivered && decide (w ≤ x.order)
  | none, none => false

/-- Such a settlement, and no other, leaves the gate as it is. -/
theorem TopicGate.settle_eq_self_iff {g : TopicGate} (h : g.Tidy) (x : Settlement) :
    g.settle x = g ↔ g.keeps x = true := by
  obtain ⟨last, witnessed⟩ := g
  obtain ⟨order, delivered⟩ := x
  cases last with
  | some l =>
    obtain rfl : witnessed = none := h l rfl
    cases delivered with
    | true =>
      simp only [TopicGate.settle, TopicGate.advance, TopicGate.keeps, if_true, TopicGate.mk.injEq,
        Option.some.injEq, and_true, Bool.not_true, Bool.false_or, decide_eq_true_eq]
      split <;> omega
    | false => simp [TopicGate.settle, TopicGate.witness, TopicGate.keeps]
  | none =>
    cases delivered with
    | true => cases witnessed <;> simp [TopicGate.settle, TopicGate.advance, TopicGate.keeps]
    | false =>
      cases witnessed with
      | none => simp [TopicGate.settle, TopicGate.witness, TopicGate.keeps]
      | some w =>
        simp only [TopicGate.settle, TopicGate.witness, TopicGate.keeps, Bool.false_eq_true,
          if_false, Bool.not_false, Bool.true_and, decide_eq_true_eq]
        split
        · next hlt => simp; omega
        · next hlt => simp; omega

/-- Only a commit moves the baseline. -/
theorem TopicGate.last_witness (g : TopicGate) (order : ℕ) : (g.witness order).last = g.last := by
  unfold TopicGate.witness
  split
  · rfl
  · split
    · rfl
    · split <;> rfl

/-! ### The delivery behind an action -/

/-- A delivery that reaches its gate. -/
structure Settles where
  /-- The call. -/
  call : ℕ
  /-- The client its update came over. -/
  via : ClientId
  /-- Its entry. -/
  entry : EntryId
  /-- What the gate is told. -/
  told : Settlement
  deriving DecidableEq

/-- The client, entry and stamp of the update a delivery carries. -/
def Task.carried : Task → Option (ClientId × EntryId × ℕ)
  | .delivery via _ e order _ => some (via, e, order)
  | _ => none

@[simp] theorem Task.carried_setPhase (p : Phase) (k : Task) :
    (k.setPhase p).carried = k.carried := by
  cases k with
  | delivery c t e n stage => cases stage <;> rfl
  | _ => rfl

namespace SubscriptionManager

/-- The delivery that settles under an action. -/
def settles (m : SubscriptionManager) : Action → Option Settles
  | .decoded i false =>
      match m.tasks[i]? with
      | some (.delivery via _ e order .decoding) => some ⟨i, via, e, ⟨order, false⟩⟩
      | _ => none
  | .handled i ok =>
      match m.tasks[i]? with
      | some (.delivery via topic e order .handling) =>
          if ok then
            if m.entries.lookup topic = some e then some ⟨i, via, e, ⟨order, true⟩⟩ else none
          else some ⟨i, via, e, ⟨order, false⟩⟩
      | _ => none
  | _ => none

/-- The gate of an entry after an action. -/
def gateAfter (m : SubscriptionManager) (a : Action) (e : EntryId) : TopicGate :=
  match a with
  | .subscribe topic _ =>
      if m.entries.lookup topic = none ∧ e = ⟨m.nextEntry⟩ then TopicGate.new else (m.heap e).gate
  | .reattach c =>
      match (m.peers c).serve .unary true with
      | .error _ => (m.heap e).gate
      | .ok _ =>
          if e ∈ m.entries.entries.map Sigma.snd then TopicGate.new else (m.heap e).gate
  | a =>
      match m.settles a with
      | some x => if x.entry = e then (m.heap e).gate.settle x.told else (m.heap e).gate
      | none => (m.heap e).gate

/-- Only a mapped entry is told that it was delivered to. -/
theorem mapped_of_settles {m : SubscriptionManager} {a : Action} {x : Settles}
    (h : m.settles a = some x) (hd : x.told.delivered = true) :
    ∃ topic, m.entries.lookup topic = some x.entry := by
  unfold settles at h
  split at h
  · split at h
    · cases h
      cases hd
    · cases h
  · split at h
    · next topic e order hk =>
      split at h
      · split at h
        · next he =>
          cases h
          exact ⟨topic, he⟩
        · cases h
      · cases h
        cases hd
    · cases h
  · cases h

/-! ### Gates -/

theorem gate_modifyEntry (e e' : EntryId) (g : TopicGate → TopicGate) (m : SubscriptionManager) :
    ((m.modifyEntry e fun x => { x with gate := g x.gate }).heap e').gate =
      if e = e' then g (m.heap e').gate else (m.heap e').gate := by
  by_cases he : e' = e
  · subst he; simp [modifyEntry]
  · have he' : e ≠ e' := fun h => he h.symm
    simp [modifyEntry, he, he']

theorem gate_goLive (e e' : EntryId) (m : SubscriptionManager) :
    ((m.goLive e).heap e').gate = (m.heap e').gate := by
  by_cases he : e' = e
  · subst he; simp [goLive, modifyEntry]
  · simp [goLive, modifyEntry, he]

theorem gate_undelivered (i : ℕ) (e e' : EntryId) (order : ℕ) (m : SubscriptionManager) :
    ((m.undelivered i e order).heap e').gate =
      if e = e' then (m.heap e').gate.settle ⟨order, false⟩ else (m.heap e').gate :=
  gate_modifyEntry e e' (fun g => g.witness order) m

theorem gate_committed (i : ℕ) (topic : TopicName) (e e' : EntryId) (order : ℕ)
    (m : SubscriptionManager) :
    ((m.committed i topic e order).heap e').gate =
      if m.entries.lookup topic = some e ∧ e = e' then (m.heap e').gate.settle ⟨order, true⟩
      else (m.heap e').gate := by
  unfold committed
  by_cases hm : m.entries.lookup topic = some e
  · simp only [hm, if_true, true_and]
    exact gate_modifyEntry e e' (fun g => g.advance order) m
  · simp only [hm, if_false, false_and]
    rfl

theorem gate_resume {m m' : SubscriptionManager} {i : ℕ} {k : Task} (h : m.resume i k = some m')
    (e : EntryId) : (m'.heap e).gate = (m.heap e).gate := by
  rcases resume_cases h with ⟨t, e', c, o, rfl, rfl⟩ | ⟨t, c, o, rfl, rfl⟩ |
    ⟨g, t, e', c, o, rfl, rfl⟩ | ⟨via, t, e', n, c, o, rfl, rfl⟩
  · cases o with
    | acknowledged => exact gate_goLive e' e m
    | lost => rfl
    | refused =>
      show ((m.delete t _).heap e).gate = _
      rw [(sameBooks_delete t _ m).heap]
  · rfl
  · cases o with
    | acknowledged => exact gate_goLive e' e m
    | lost => rfl
    | refused => rfl
  · rfl

theorem gate_settle (m : SubscriptionManager) (i : ℕ) (k : Task) (c : ClientId) (o : Outcome) :
    (m.settle i k c o).heap = m.heap := by
  rw [settle_eq]; rfl

/-- A delivery that goes on tells its gate what `settles` says. -/
theorem gate_proceed {m : SubscriptionManager} {i : ℕ} {ok : Bool} {stage : Stage} {k : Task}
    {a : Action} (hk : m.tasks[i]? = some k) (hw : waits stage k = true)
    (ha : (a = .observed i ∧ stage = .observing) ∨ (a = .decoded i ok ∧ stage = .decoding) ∨
      (a = .handled i ok ∧ stage = .handling)) (e : EntryId) :
    ((m.proceed i ok k).heap e).gate = m.gateAfter a e := by
  cases k with
  | delivery via t e' n x =>
    obtain rfl : x = stage := by simpa [waits] using hw
    rcases ha with ⟨rfl, rfl⟩ | ⟨rfl, rfl⟩ | ⟨rfl, rfl⟩
    · rfl
    · cases ok with
      | true =>
        simp only [proceed, gateAfter, settles, if_true]
        split <;> rfl
      | false =>
        simp only [proceed, gateAfter, settles, hk, Bool.false_eq_true, if_false]
        exact gate_undelivered i e' e n m
    · cases ok with
      | true =>
        simp only [proceed, gateAfter, settles, hk, if_true]
        rw [gate_committed]
        by_cases hm : m.entries.lookup t = some e'
        · simp [hm]
        · simp [hm]
      | false =>
        simp only [proceed, gateAfter, settles, hk, Bool.false_eq_true, if_false]
        exact gate_undelivered i e' e n m
  | _ => cases hw

/-- The action of a step that only moves a delivery on. -/
theorem gate_of_proceeds {m m' : SubscriptionManager} {i : ℕ} {ok : Bool} {stage : Stage}
    {a : Action}
    (ha : (a = .observed i ∧ stage = .observing) ∨ (a = .decoded i ok ∧ stage = .decoding) ∨
      (a = .handled i ok ∧ stage = .handling))
    (h : (match m.tasks[i]? with
      | some k => if waits stage k then some (m.proceed i ok k) else none
      | none => none) = some m') (e : EntryId) : (m'.heap e).gate = m.gateAfter a e := by
  split at h
  · next k hk =>
    split at h
    · next hw =>
      cases h
      exact gate_proceed hk hw ha e
    · cases h
  · cases h

theorem gate_subscribe (m : SubscriptionManager) (topic : TopicName) (onGap : Bool) (e : EntryId) :
    ((m.subscribe topic onGap).heap e).gate = m.gateAfter (.subscribe topic onGap) e := by
  unfold subscribe gateAfter
  split
  · next hmapped => simp [hmapped]
  · next hnone =>
    by_cases he : e = ⟨m.nextEntry⟩
    · subst he; simp [hnone]
    · simp [he]

theorem gate_reattach (m : SubscriptionManager) (c : ClientId) (e : EntryId) :
    ((m.reattach c).heap e).gate = m.gateAfter (.reattach c) e := by
  simp only [reattach, gateAfter]
  cases (m.peers c).serve .unary true with
  | error x => rfl
  | ok p =>
    by_cases he : e ∈ m.entries.entries.map Sigma.snd
    · simp only [he, if_true]
      rfl
    · simp only [he, if_false]

theorem heap_update (m : SubscriptionManager) (c : ClientId) (topic : TopicName) (order : ℕ) :
    (m.update c topic order).heap = m.heap := by
  unfold update
  split
  · rfl
  · split
    · rfl
    · split <;> rfl
    · rfl

/-- **Every step changes the gates as `gateAfter` says.** -/
theorem gate_step {m m' : SubscriptionManager} {a : Action} (h : m.step a = some m') (e : EntryId) :
    (m'.heap e).gate = m.gateAfter a e := by
  cases step_effect h with
  | subscribe topic onGap => exact gate_subscribe m topic onGap e
  | unsubscribe topic =>
    show ((m.unsubscribe topic).heap e).gate = _
    unfold unsubscribe
    split
    · rfl
    · show ((m.delete topic _).heap e).gate = _
      rw [(sameBooks_delete topic _ m).heap]
      rfl
  | reattach c => exact gate_reattach m c e
  | close c => rfl
  | claim p => rfl
  | unclaimed x => rfl
  | complete topic =>
    rw [(sameBooks_delete topic _ m).heap]
    rfl
  | update topic order =>
    rw [heap_update]
    rfl
  | emit hk hp =>
    unfold emit
    split <;> rfl
  | settle o hk hp =>
    rw [gate_settle]
    rfl
  | resume hk hr => exact gate_resume hr e
  | endRefused hk =>
    show (((m.refusals _).foldl endOne m).heap e).gate = _
    rw [(sameBooks_foldl_endOne _ m).heap]
    rfl
  | observed hp => exact gate_of_proceeds (.inl ⟨rfl, rfl⟩) h e
  | decoded hp => exact gate_of_proceeds (.inr (.inl ⟨rfl, rfl⟩)) h e
  | handled hp => exact gate_of_proceeds (.inr (.inr ⟨rfl, rfl⟩)) h e

/-! ### Calls -/

/-- Where the call at index `j` went under an action. -/
inductive Moved (m : SubscriptionManager) (a : Action) (j : ℕ) : Task → Prop
  /-- It is a new one, and no delivery. -/
  | called {k : Task} (hj : m.tasks.length ≤ j) (hk : k.carried = none) : Moved m a j k
  /-- It is the delivery of an update that arrived just now. -/
  | dispatched {c : ClientId} {topic : TopicName} {order : ℕ} {e : EntryId} {k : Task}
      (hj : m.tasks.length ≤ j) (ha : a = .update c topic order)
      (he : m.entries.lookup topic = some e)
      (hk : k = .delivery c topic e order .observing ∨
        k = .delivery c topic e order (.resync .building) ∨
        k = .delivery c topic e order .decoding) : Moved m a j k
  /-- Its command went on. -/
  | commanded {k : Task} (p : Phase) (hk : m.tasks[j]? = some k) : Moved m a j (k.setPhase p)
  /-- It returned, or it is a replay that is through. -/
  | returned {k : Task} (hk : k.carried = none) : Moved m a j k
  /-- It decodes. -/
  | decoding {via : ClientId} {topic : TopicName} {e : EntryId} {order : ℕ} {stage : Stage}
      (hk : m.tasks[j]? = some (.delivery via topic e order stage)) :
      Moved m a j (.delivery via topic e order .decoding)
  /-- It has decoded, and its entry is mapped. -/
  | handling {via : ClientId} {topic : TopicName} {e : EntryId} {order : ℕ} (ha : a = .decoded j true)
      (hk : m.tasks[j]? = some (.delivery via topic e order .decoding))
      (he : m.entries.lookup topic = some e) :
      Moved m a j (.delivery via topic e order .handling)

variable {m m' : SubscriptionManager} {a : Action} {j : ℕ} {k : Task}

/-- One call was replaced. -/
theorem moved_set {i : ℕ} {k' : Task} (htasks : m'.tasks = m.tasks.set i k')
    (hmoved : Moved m a i k') (hk : m'.tasks[j]? = some k) :
    m.tasks[j]? = some k ∨ Moved m a j k := by
  rw [htasks] at hk
  by_cases hij : i = j
  · subst hij
    rw [List.getElem?_set_self'] at hk
    obtain ⟨_, _, rfl⟩ := Option.map_eq_some_iff.mp hk
    exact Or.inr hmoved
  · rw [List.getElem?_set_ne hij] at hk
    exact Or.inl hk

/-- Calls were added. -/
theorem moved_append {ks : List Task} (htasks : m'.tasks = m.tasks ++ ks)
    (hmoved : ∀ k ∈ ks, ∀ j, m.tasks.length ≤ j → Moved m a j k) (hk : m'.tasks[j]? = some k) :
    m.tasks[j]? = some k ∨ Moved m a j k := by
  rw [htasks] at hk
  rcases Nat.lt_or_ge j m.tasks.length with hlt | hge
  · rw [List.getElem?_append_left hlt] at hk
    exact Or.inl hk
  · rw [List.getElem?_append_right hge] at hk
    exact Or.inr (hmoved k (List.mem_of_getElem? hk) j hge)

theorem moved_same (htasks : m'.tasks = m.tasks) (hk : m'.tasks[j]? = some k) :
    m.tasks[j]? = some k ∨ Moved m a j k :=
  Or.inl (htasks ▸ hk)

/-- The start of `deliver`. -/
theorem moved_deliver {via : ClientId} {topic : TopicName} {e : EntryId} {order i : ℕ} {stage : Stage}
    (hk : m.tasks[i]? = some (.delivery via topic e order stage)) :
    Moved m a i (m.deliver via topic e order) := by
  unfold deliver
  split
  · exact .decoding hk
  · exact .returned rfl

theorem moved_update {c : ClientId} {topic : TopicName} {order : ℕ}
    (hk : (m.update c topic order).tasks[j]? = some k) :
    m.tasks[j]? = some k ∨ Moved m (.update c topic order) j k := by
  unfold update at hk
  split at hk
  · exact Or.inl hk
  · next e he =>
    have hone : ∀ k', (k' = .delivery c topic e order .observing ∨
        k' = .delivery c topic e order (.resync .building) ∨
        k' = .delivery c topic e order .decoding) →
        (m.spawn k').tasks[j]? = some k →
        m.tasks[j]? = some k ∨ Moved m (.update c topic order) j k := by
      intro k' hk' h
      refine moved_append (show (m.spawn k').tasks = m.tasks ++ [k'] from rfl) ?_ h
      intro x hx i hi
      rw [List.mem_singleton.mp hx]
      exact .dispatched hi rfl he hk'
    split at hk
    · exact Or.inl hk
    · split at hk
      · exact hone _ (Or.inl rfl) hk
      · exact hone _ (Or.inr (Or.inl rfl)) hk
    · rw [deliver, if_pos he] at hk
      exact hone _ (Or.inr (Or.inr rfl)) hk

theorem moved_resume {i : ℕ} {x : Task} (hx : m.tasks[i]? = some x) (h : m.resume i x = some m')
    (hk : m'.tasks[j]? = some k) : m.tasks[j]? = some k ∨ Moved m a j k := by
  rcases resume_cases h with ⟨t, e, c, o, rfl, rfl⟩ | ⟨t, c, o, rfl, rfl⟩ |
    ⟨g, t, e, c, o, rfl, rfl⟩ | ⟨via, t, e, n, c, o, rfl, rfl⟩
  · cases o with
    | acknowledged => exact moved_set rfl (.returned rfl) hk
    | lost => exact moved_set rfl (.returned rfl) hk
    | refused =>
      have htasks : ((m.delete t (.refused e c)).setTask i .finished).tasks =
          m.tasks.set i .finished := by
        rw [setTask, (sameBooks_delete t (.refused e c) m).tasks]
      exact moved_set htasks (.returned rfl) hk
  · exact moved_set rfl (.returned rfl) hk
  · cases o <;> exact moved_set rfl (.returned rfl) hk
  · exact moved_set rfl (moved_deliver hx) hk

theorem moved_proceed {i : ℕ} {ok : Bool} {stage : Stage} {x : Task} (hx : m.tasks[i]? = some x)
    (hw : waits stage x = true) (ha : stage = .decoding → a = .decoded i ok)
    (hk : (m.proceed i ok x).tasks[j]? = some k) : m.tasks[j]? = some k ∨ Moved m a j k := by
  cases x with
  | delivery via t e n s =>
    obtain rfl : s = stage := by simpa [waits] using hw
    cases s with
    | resync p => exact Or.inl hk
    | observing => exact moved_set rfl (moved_deliver hx) hk
    | decoding =>
      simp only [proceed] at hk
      split at hk
      · next hok =>
        subst hok
        split at hk
        · next he => exact moved_set rfl (.handling (ha rfl) hx he) hk
        · exact moved_set rfl (.returned rfl) hk
      · exact moved_set rfl (.returned rfl) hk
    | handling =>
      simp only [proceed, committed] at hk
      split at hk
      · split at hk
        · exact moved_set rfl (.returned rfl) hk
        · exact moved_set rfl (.returned rfl) hk
      · exact moved_set rfl (.returned rfl) hk
  | _ => cases hw

theorem moved_of_proceeds {i : ℕ} {ok : Bool} {stage : Stage}
    (ha : stage = .decoding → a = .decoded i ok)
    (h : (match m.tasks[i]? with
      | some k => if waits stage k then some (m.proceed i ok k) else none
      | none => none) = some m') (hk : m'.tasks[j]? = some k) :
    m.tasks[j]? = some k ∨ Moved m a j k := by
  split at h
  · next x hx =>
    split at h
    · next hw =>
      cases h
      exact moved_proceed hx hw ha hk
    · cases h
  · cases h

/-- **Every step moves the calls so.** -/
theorem moved_step (h : m.step a = some m') (hk : m'.tasks[j]? = some k) :
    m.tasks[j]? = some k ∨ Moved m a j k := by
  have hcalls : ∀ ks : List Task, (∀ k ∈ ks, k.carried = none) → m'.tasks = m.tasks ++ ks →
      m.tasks[j]? = some k ∨ Moved m a j k :=
    fun ks hks htasks => moved_append htasks (fun x hx i hi => .called hi (hks x hx)) hk
  cases step_effect h with
  | subscribe topic onGap =>
    cases hl : m.entries.lookup topic with
    | some e => exact hcalls [] (by simp) (by simp [subscribe, hl])
    | none =>
      exact hcalls [.subscribe topic ⟨m.nextEntry⟩ .building] (by simp [Task.carried])
        (by simp [subscribe, hl])
  | unsubscribe topic =>
    cases hl : m.entries.lookup topic with
    | none => exact hcalls [] (by simp) (by simp [unsubscribe, hl])
    | some e =>
      refine hcalls [.unsubscribe topic .building] (by simp [Task.carried]) ?_
      simp only [unsubscribe, hl, spawn]
      rw [(sameBooks_delete topic _ m).tasks]
  | reattach c =>
    cases hs : (m.peers c).serve .unary true with
    | error x => exact hcalls [] (by simp) (by simp [reattach, hs])
    | ok p =>
      refine hcalls (.reattach :: m.mapped.map fun x => .replay m.tasks.length x.1 x.2 .building) ?_
        (by simp [reattach, hs])
      intro k hk
      rcases List.mem_cons.mp hk with rfl | hk
      · rfl
      · obtain ⟨y, _, rfl⟩ := List.mem_map.mp hk
        rfl
  | close c => exact Or.inl hk
  | claim p => exact Or.inl hk
  | unclaimed e => exact Or.inl hk
  | complete topic => exact moved_same (sameBooks_delete topic _ m).tasks hk
  | update topic order => exact moved_update hk
  | emit hx hp =>
    unfold emit at hk
    split at hk
    · exact moved_set rfl (.commanded _ hx) hk
    · exact moved_set rfl (.commanded _ hx) hk
  | settle o hx hp => exact moved_set (by rw [settle_eq]; rfl) (.commanded _ hx) hk
  | resume hx hr => exact moved_resume hx hr hk
  | @endRefused i hx =>
    have htasks : (m.endRefused i).tasks = m.tasks.set i .finished := by
      rw [SubscriptionManager.endRefused, setTask, (sameBooks_foldl_endOne _ m).tasks]
    exact moved_set htasks (.returned rfl) hk
  | observed hp => exact moved_of_proceeds (by simp) h hk
  | decoded hp => exact moved_of_proceeds (fun _ => rfl) h hk
  | handled hp => exact moved_of_proceeds (by simp) h hk

/-! ### Deliveries -/

/-- The update the call at index `i` carries. -/
def carriedAt (m : SubscriptionManager) (i : ℕ) : Option (ClientId × EntryId × ℕ) :=
  m.tasks[i]?.bind Task.carried

/-- **A delivery carries the update it was dispatched with**: what a call carries it
carried before the step, unless the step dispatched it. -/
theorem carried_step (h : m.step a = some m') {x : ClientId × EntryId × ℕ}
    (hx : m'.carriedAt j = some x) :
    m.carriedAt j = some x ∨ m.tasks.length ≤ j ∧ ∃ topic, a = .update x.1 topic x.2.2 ∧
      m.entries.lookup topic = some x.2.1 := by
  obtain ⟨k, hk, hcarry⟩ := Option.bind_eq_some_iff.mp hx
  have hold : ∀ k', m.tasks[j]? = some k' → k'.carried = some x → m.carriedAt j = some x := by
    intro k' hk' hx'
    rw [carriedAt, hk']
    exact hx'
  rcases moved_step h hk with hk' | hmoved
  · exact Or.inl (hold k hk' hcarry)
  · cases hmoved with
    | called hj hnone =>
      rw [hnone] at hcarry
      cases hcarry
    | dispatched hj ha he hk' =>
      rcases hk' with rfl | rfl | rfl
      · cases hcarry
        exact Or.inr ⟨hj, _, ha, he⟩
      · cases hcarry
        exact Or.inr ⟨hj, _, ha, he⟩
      · cases hcarry
        exact Or.inr ⟨hj, _, ha, he⟩
    | commanded p hk' =>
      rw [Task.carried_setPhase] at hcarry
      exact Or.inl (hold _ hk' hcarry)
    | returned hnone =>
      rw [hnone] at hcarry
      cases hcarry
    | decoding hk' => exact Or.inl (hold _ hk' hcarry)
    | handling _ hk' => exact Or.inl (hold _ hk' hcarry)

/-- A delivery reaches its handler behind its decode, with its entry mapped. -/
theorem handling_step (h : m.step a = some m') {via : ClientId} {topic : TopicName} {e : EntryId}
    {order : ℕ} (hk : m'.tasks[j]? = some (.delivery via topic e order .handling)) :
    m.tasks[j]? = some (.delivery via topic e order .handling) ∨
      a = .decoded j true ∧ m.tasks[j]? = some (.delivery via topic e order .decoding) ∧
        m.entries.lookup topic = some e := by
  rcases moved_step h hk with hk' | hmoved
  · exact Or.inl hk'
  · generalize hx : Task.delivery via topic e order .handling = x at hmoved
    cases hmoved with
    | called hj hnone => rw [← hx] at hnone; cases hnone
    | dispatched hj ha he hk' => rcases hk' with rfl | rfl | rfl <;> cases hx
    | @commanded k p hk' =>
      -- a delivery at its handler waits for no command
      refine Or.inl ?_
      cases k with
      | delivery via' t e' n stage =>
        cases stage with
        | resync q => cases hx
        | _ => exact hk'
      | _ => cases hx
    | returned hnone => rw [← hx] at hnone; cases hnone
    | decoding hk' => cases hx
    | handling ha hk' he =>
      cases hx
      exact Or.inr ⟨ha, hk', he⟩

end SubscriptionManager
end Client
end TightbeamExt
