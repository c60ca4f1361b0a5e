import TightbeamExt.Pubsub.Backplane

/-!
# Stamp accounting

`Local` hands a stamp to its sinks before it knows whether the stamp burns.  Here the
sinks are anything at all: what an entry of the list answers, and whether it is still
there, is up to the caller of each operation.

## Main definitions

* `Local`, `Local.perform` — the backplane and its three operations.
* `Outcome` — what one operation did; `Outcome.consumed` — the stamp it used up.
* `Local.play` — the operations one after the other.

## Main results

* `stamps_accounted` — **the stamps used up are `1 .. last_order`**, one operation each
  and in the order of the operations; a refused publish leaves its stamp to the next
  operation, and topics do not see each other.
-/

namespace TightbeamExt
namespace Pubsub

/-! ### The answers of the sinks -/

namespace Tally

/-- Every sink answered in turn. -/
def recordAll (t : Tally) (answers : List (Except DeliverError Unit)) : Tally :=
  answers.foldl record t

theorem deliveredAny_recordAll : ∀ (answers : List (Except DeliverError Unit)) (t : Tally),
    (t.recordAll answers).deliveredAny = (t.deliveredAny || answers.any (·.isOk)) := by
  intro answers
  induction answers with
  | nil => intro t; simp [recordAll]
  | cons a answers ih =>
    intro t
    show ((t.record a).recordAll answers).deliveredAny = _
    rw [ih, deliveredAny_record, List.any_cons, Bool.or_assoc]

/-- What was heard stays heard. -/
theorem heard_recordAll : ∀ (answers : List (Except DeliverError Unit)) (t : Tally),
    (t.deliveredAny || t.refused) = true →
    ((t.recordAll answers).deliveredAny || (t.recordAll answers).refused) = true := by
  intro answers
  induction answers with
  | nil => intro t ht; exact ht
  | cons a answers ih =>
    intro t _
    exact ih (t.record a) (heard_record t a)

/-- The stamp burns exactly when a sink accepted or there was none. -/
theorem commits_recordAll (answers : List (Except DeliverError Unit)) :
    (empty.recordAll answers).commits = (answers.any (·.isOk) || answers.isEmpty) := by
  unfold commits
  rw [deliveredAny_recordAll]
  cases answers with
  | nil => rfl
  | cons a answers =>
    have hheard := heard_recordAll answers (empty.record a) (heard_record empty a)
    rw [deliveredAny_recordAll, deliveredAny_record] at hheard
    show (_ || _ || !(((empty.record a).recordAll answers).refused)) = _
    rw [List.any_cons, List.isEmpty_cons, Bool.or_false]
    cases hacc : a.isOk || answers.any (·.isOk) with
    | true => simp
    | false =>
      rw [Bool.or_assoc empty.deliveredAny, hacc] at hheard
      have hrefused : ((empty.record a).recordAll answers).refused = true := by
        simpa [empty] using hheard
      rw [hrefused]
      rfl

end Tally

/-! ### The backplane -/

/-- The in-process backplane.  An entry of `sinks` stands for one `attach` call. -/
structure Local (σ : Type*) where
  /-- The stamp counters. -/
  orders : Table Topic ℕ
  /-- The attached sinks. -/
  sinks : List σ

/-- What an entry does when it is called: nothing if its sink is gone. -/
abbrev Answers (σ : Type*) := σ → Option (Except DeliverError Unit)

/-- The operations, with what the sinks do meanwhile. -/
inductive LocalOp (σ : Type*)
  /-- `attach`; `alive` says whose sink is still there. -/
  | attach (alive : σ → Bool) (sink : σ)
  /-- `publish`. -/
  | publish (t : Topic) (answers : Answers σ)
  /-- `reserve_order`. -/
  | reserveOrder (t : Topic)

/-- What an operation did. -/
inductive Outcome (σ : Type*)
  /-- A sink is attached. -/
  | attached
  /-- The sinks called with `order`, what they said, and what `publish` returned. -/
  | published (t : Topic) (order : ℕ) (calls : List (σ × Except DeliverError Unit))
      (result : Except BackplaneError Unit)
  /-- What `reserve_order` returned. -/
  | reserved (t : Topic) (order : ℕ)

/-- The topic an operation is about. -/
def LocalOp.topic {σ : Type*} : LocalOp σ → Option Topic
  | .attach _ _ => none
  | .publish t _ => some t
  | .reserveOrder t => some t

/-- The stamp an operation worked with. -/
def Outcome.stamp {σ : Type*} : Outcome σ → Option (Topic × ℕ)
  | .attached => none
  | .published t order _ _ => some (t, order)
  | .reserved t order => some (t, order)

/-- The stamp an operation used up: a reserved one, one that some sink accepted, or one
that met no live sink. -/
def Outcome.consumed {σ : Type*} : Outcome σ → Option (Topic × ℕ)
  | .attached => none
  | .published t order calls _ =>
      if calls.any (·.2.isOk) || calls.isEmpty then some (t, order) else none
  | .reserved t order => some (t, order)

namespace Local

variable {σ : Type*}

/-- `Local::default`. -/
def new : Local σ := ⟨∅, []⟩

/-- `Local::last_order`. -/
def lastOrder (l : Local σ) (t : Topic) : ℕ := (l.orders.lookup t).getD 0

/-- The stamp the next operation on `t` works with. -/
def nextOrder (l : Local σ) (t : Topic) : ℕ := saturatingSucc (l.lastOrder t)

/-- The loop of `publish` over the entries: the tally and who is kept. -/
def retain (answers : Answers σ) : Tally → List σ → Tally × List σ
  | tally, [] => (tally, [])
  | tally, e :: rest =>
      match answers e with
      | none => retain answers tally rest
      | some answer =>
          let r := retain answers (tally.record answer) rest
          (r.1, e :: r.2)

/-- The sinks the loop calls. -/
def calls (answers : Answers σ) (sinks : List σ) : List (σ × Except DeliverError Unit) :=
  sinks.filterMap fun e => (answers e).map fun answer => (e, answer)

/-- `Local::publish`. -/
def publish (t : Topic) (answers : Answers σ) (l : Local σ) :
    Except BackplaneError Unit × Local σ :=
  let (tally, kept) := retain answers .empty l.sinks
  (tally.answer,
    { orders := if tally.commits then l.orders.insert t (l.nextOrder t) else l.orders
      sinks := kept })

/-- `Local::reserve_order`. -/
def reserveOrder (t : Topic) (l : Local σ) : ℕ × Local σ :=
  (l.nextOrder t, { l with orders := l.orders.insert t (l.nextOrder t) })

/-- One operation. -/
def perform (l : Local σ) : LocalOp σ → Outcome σ × Local σ
  | .attach alive sink => (.attached, { l with sinks := l.sinks.filter alive ++ [sink] })
  | .publish t answers =>
      let r := l.publish t answers
      (.published t (l.nextOrder t) (calls answers l.sinks) r.1, r.2)
  | .reserveOrder t =>
      let r := l.reserveOrder t
      (.reserved t r.1, r.2)

/-- The operations one after the other. -/
def play : Local σ → List (LocalOp σ) → List (Outcome σ) × Local σ
  | l, [] => ([], l)
  | l, op :: ops =>
      let r := l.perform op
      let rest := play r.2 ops
      (r.1 :: rest.1, rest.2)

/-- The stamps of `t` the operations used up. -/
def stampsOf (t : Topic) (outcomes : List (Outcome σ)) : List ℕ :=
  outcomes.filterMap fun o =>
    match o.consumed with
    | some (t', order) => if t' = t then some order else none
    | none => none

/-! ### One operation -/

/-- The loop calls the live sinks in order and forgets the others. -/
theorem retain_eq (answers : Answers σ) : ∀ (sinks : List σ) (tally : Tally),
    retain answers tally sinks =
      (tally.recordAll ((calls answers sinks).map Prod.snd),
        sinks.filter fun e => (answers e).isSome) := by
  intro sinks
  induction sinks with
  | nil => intro tally; rfl
  | cons e rest ih =>
    intro tally
    cases he : answers e with
    | none => simp [retain, calls, he, ih]
    | some answer => simp [retain, calls, he, ih, Tally.recordAll]

/-- A publish burns its stamp exactly when its outcome says so. -/
theorem commits_retain (answers : Answers σ) (sinks : List σ) :
    (retain answers .empty sinks).1.commits =
      ((calls answers sinks).any (·.2.isOk) || (calls answers sinks).isEmpty) := by
  rw [retain_eq, Tally.commits_recordAll, List.any_map, List.isEmpty_map]
  rfl

theorem lastOrder_insert (l : Local σ) (sinks : List σ) (t t' : Topic) (order : ℕ) :
    lastOrder ⟨l.orders.insert t order, sinks⟩ t' = if t' = t then order else l.lastOrder t' := by
  unfold lastOrder
  rw [Table.lookup_insert_eq]
  split <;> rfl

/-- **The step lemma.**  An operation moves the counter of the topic whose stamp it used
up, to that stamp, and no other counter. -/
theorem lastOrder_perform (l : Local σ) (op : LocalOp σ) (t : Topic) :
    (l.perform op).2.lastOrder t =
      match (l.perform op).1.consumed with
      | some (t', order) => if t = t' then order else l.lastOrder t
      | none => l.lastOrder t := by
  cases op with
  | attach alive sink => rfl
  | publish t' answers =>
    have hcommits := commits_retain answers l.sinks
    simp only [perform, publish, Outcome.consumed]
    rw [hcommits]
    split
    · exact lastOrder_insert l _ t' t _
    · rfl
  | reserveOrder t' => exact lastOrder_insert l _ t' t _

/-- What is used up is the next stamp. -/
theorem consumed_eq_next {l : Local σ} {op : LocalOp σ} {t : Topic} {order : ℕ}
    (h : (l.perform op).1.consumed = some (t, order)) : order = l.nextOrder t := by
  cases op with
  | attach alive sink => cases h
  | publish t' answers =>
    simp only [perform, Outcome.consumed] at h
    split at h
    · cases h; rfl
    · cases h
  | reserveOrder t' => cases h; rfl

/-! ### Whole runs -/

theorem stampsOf_cons (t : Topic) (o : Outcome σ) (os : List (Outcome σ)) :
    stampsOf t (o :: os) =
      (match o.consumed with
        | some (t', order) => if t' = t then [order] else []
        | none => []) ++ stampsOf t os := by
  unfold stampsOf
  rw [List.filterMap_cons]
  split
  · next h =>
    split at h
    · split at h
      · cases h
      · simp [*]
    · simp [*]
  · next h =>
    split at h
    · split at h
      · cases h; simp [*]
      · cases h
    · cases h

/-- From any counter on, the stamps used up follow it without a gap. -/
theorem stampsOf_play (t : Topic) : ∀ (ops : List (LocalOp σ)) (l : Local σ),
    l.lastOrder t + (stampsOf t (l.play ops).1).length < u64Max →
    stampsOf t (l.play ops).1 =
        List.range' (l.lastOrder t + 1) (stampsOf t (l.play ops).1).length ∧
      (l.play ops).2.lastOrder t = l.lastOrder t + (stampsOf t (l.play ops).1).length := by
  intro ops
  induction ops with
  | nil => intro l _; exact ⟨rfl, rfl⟩
  | cons op ops ih =>
    intro l hlen
    simp only [play] at hlen ⊢
    have hmoved := lastOrder_perform l op t
    have ih' := ih (l.perform op).2
    rw [stampsOf_cons] at hlen ⊢
    cases hused : (l.perform op).1.consumed with
    | none =>
      rw [hused] at hmoved
      simp only [hused, List.nil_append, hmoved] at hlen ih' ⊢
      exact ih' hlen
    | some used =>
      obtain ⟨t', order⟩ := used
      have horder := consumed_eq_next hused
      rw [hused] at hmoved
      by_cases ht : t' = t
      · subst ht
        simp only [hused, if_true, List.singleton_append, List.length_cons] at hlen hmoved ⊢
        have hsucc : order = l.lastOrder t' + 1 := by
          rw [horder]
          exact saturatingSucc_of_lt (by omega)
        rw [hmoved, hsucc] at ih'
        obtain ⟨hrange, hlast⟩ := ih' (by omega)
        refine ⟨?_, by omega⟩
        rw [List.range'_succ, ← hrange, hsucc]
      · simp only [hused, if_neg ht, if_neg (Ne.symm ht), List.nil_append] at hlen hmoved ⊢
        rw [hmoved] at ih'
        exact ih' hlen

/-- The stamps are counted per topic: another topic's counter stays. -/
theorem lastOrder_perform_of_ne (l : Local σ) {op : LocalOp σ} {t : Topic} (h : op.topic ≠ some t) :
    (l.perform op).2.lastOrder t = l.lastOrder t := by
  cases op with
  | attach alive sink => rfl
  | publish t' answers =>
    have hne : t ≠ t' := by rintro rfl; exact h rfl
    have hmoved := lastOrder_perform l (.publish t' answers) t
    simp only [perform, Outcome.consumed] at hmoved ⊢
    rw [hmoved]
    split
    · next ht =>
      split at ht
      · cases ht; exact if_neg hne
      · cases ht
    · rfl
  | reserveOrder t' =>
    have hne : t ≠ t' := by rintro rfl; exact h rfl
    exact (lastOrder_insert l _ t' t _).trans (if_neg hne)

/-- Whatever works with a stamp of `t` works with the next one. -/
theorem stamp_eq_next {l : Local σ} {op : LocalOp σ} {t : Topic} {order : ℕ}
    (h : (l.perform op).1.stamp = some (t, order)) : order = l.nextOrder t := by
  cases op with
  | attach alive sink => cases h
  | publish t' answers => cases h; rfl
  | reserveOrder t' => cases h; rfl

/-- Every live sink refuses: no stamp is used up. -/
theorem consumed_of_refused {l : Local σ} {answers : Answers σ} (t : Topic)
    (hlive : ∃ e ∈ l.sinks, (answers e).isSome = true)
    (hrefuse : ∀ e ∈ l.sinks, answers e ≠ some (.ok ())) :
    (l.perform (.publish t answers)).1.consumed = none := by
  have hnone : (calls answers l.sinks).any (·.2.isOk) = false := by
    rw [List.any_eq_false]
    intro x hx
    obtain ⟨e, he, hxe⟩ := List.mem_filterMap.mp hx
    obtain ⟨answer, hanswer, rfl⟩ := Option.map_eq_some_iff.mp hxe
    cases answer with
    | ok u => exact absurd hanswer (hrefuse e he)
    | error cause => simp [Except.isOk, Except.toBool]
  have hsome : (calls answers l.sinks).isEmpty = false := by
    obtain ⟨e, he, hlive⟩ := hlive
    obtain ⟨answer, hanswer⟩ := Option.isSome_iff_exists.mp hlive
    rw [List.isEmpty_eq_false_iff_exists_mem]
    exact ⟨(e, answer), List.mem_filterMap.mpr ⟨e, he, by rw [hanswer]; rfl⟩⟩
  simp only [perform, Outcome.consumed, hnone, hsome]
  rfl

/-- **Stamp accounting.**  Over every sequence of operations that uses up fewer than
`u64::MAX` stamps of a topic, those stamps are `1 .. last_order`, one after the other.  In
every state reached, a publish that every live sink refuses uses up none and leaves its
stamp to the next operation on the topic, and an operation leaves the counters of all other
topics alone. -/
theorem stamps_accounted (ops : List (LocalOp σ)) :
    (∀ t, (stampsOf t (new.play ops).1).length < u64Max →
      stampsOf t (new.play ops).1 = List.range' 1 ((new.play ops).2.lastOrder t)) ∧
    (∀ t (answers : Answers σ), (∃ e ∈ (new.play ops).2.sinks, (answers e).isSome = true) →
      (∀ e ∈ (new.play ops).2.sinks, answers e ≠ some (.ok ())) →
      ((new.play ops).2.perform (.publish t answers)).1.consumed = none ∧
      ∀ next order,
        (((new.play ops).2.perform (.publish t answers)).2.perform next).1.stamp =
          some (t, order) →
        ((new.play ops).2.perform (.publish t answers)).1.stamp = some (t, order)) ∧
    ∀ op t, op.topic ≠ some t →
      ((new.play ops).2.perform op).2.lastOrder t = (new.play ops).2.lastOrder t := by
  refine ⟨?_, ?_, fun op t => lastOrder_perform_of_ne _⟩
  · intro t hlen
    have hzero : (new : Local σ).lastOrder t = 0 := rfl
    obtain ⟨hrange, hlast⟩ := stampsOf_play t ops new (by rw [hzero]; omega)
    rw [hzero, Nat.zero_add] at hrange hlast
    rw [hlast]
    exact hrange
  · intro t answers hlive hrefuse
    have hnone := consumed_of_refused t hlive hrefuse
    refine ⟨hnone, ?_⟩
    intro next order hnext
    have hsame := lastOrder_perform (new.play ops).2 (.publish t answers) t
    rw [hnone] at hsame
    rw [stamp_eq_next hnext, nextOrder, hsame]
    rfl

/-- A sink that refuses, then accepts, then a reservation. -/
def refusedOnce : List (LocalOp ℕ) :=
  [.attach (fun _ => true) 0, .publish Topic.prices fun _ => some (.error .draining),
    .publish Topic.prices fun _ => some (.ok ()), .reserveOrder Topic.prices]

/-- The refused stamp is used by the next publish. -/
theorem stamps_of_refusedOnce :
    stampsOf Topic.prices (new.play refusedOnce).1 = [1, 2] ∧
      (new.play refusedOnce).2.lastOrder Topic.prices = 2 := by
  have hlen : (stampsOf Topic.prices (new.play refusedOnce).1).length < u64Max := by decide +kernel
  have hlast : (new.play refusedOnce).2.lastOrder Topic.prices = 2 := by decide +kernel
  have hrange := (stamps_accounted refusedOnce).1 Topic.prices hlen
  rw [hlast] at hrange
  exact ⟨hrange, hlast⟩

end Local
end Pubsub
end TightbeamExt
