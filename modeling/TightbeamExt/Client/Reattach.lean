import TightbeamExt.Client.Settlement

/-!
# A reattach and the deliveries before it

A reattach resets the gates of the mapped entries, because the stamps of the new
connection's server may have restarted.  A delivery that was dispatched before the reset
still holds its entry; when it settles it asks whether the entry is mapped, which the
reattach did not change, and tells the gate a stamp of the old connection.

A `Session` is the time since an entry's gate was new.  It keeps, as ghost state, the
connection of that time, the stamps received over it, and what the session's own deliveries
told the gate.

## Main definitions

* `Session`, `Resumption` — the manager with a session for each entry.
* `Resumption.Own` — a settlement of the entry's session.
* `Resumption.outlives` — a delivery that is not of its entry's session.
* `Resumption.Fenced` — the condition on a step: such a delivery does not fail, and its
  handler returns only when its entry is out of the map.

## Main results

* `reattach_fences_deliveries` — **in runs of fenced steps the classification of an update
  depends on its own session only**.
* `old_delivery_moves_the_gate` — a delivery that outlives a reattach makes the first update
  of the new connection stale.
-/

namespace TightbeamExt
namespace Client

open Transition Pubsub

/-- The time since an entry's gate was new. -/
structure Session where
  /-- How many calls had been made by then. -/
  start : ℕ
  /-- The connection that was newest then. -/
  link : ClientId
  /-- The stamps dispatched to the entry over it since. -/
  received : List ℕ
  /-- What the session's own deliveries told the gate. -/
  settled : List Settlement
  deriving DecidableEq

/-- A session that begins. -/
def Session.new (start : ℕ) (link : ClientId) : Session := ⟨start, link, [], []⟩

/-- The manager, with the session each entry is in. -/
structure Resumption where
  /-- The manager. -/
  manager : SubscriptionManager
  /-- The sessions. -/
  session : EntryId → Session

namespace Resumption

/-- The connection installed last. -/
def newest (s : Resumption) : ClientId := s.manager.served.headD s.manager.client

/-- The delivery was dispatched in the session of its entry, over its connection. -/
def Own (s : Resumption) (x : Settles) : Prop :=
  (s.session x.entry).start ≤ x.call ∧ x.via = (s.session x.entry).link

instance (s : Resumption) (x : Settles) : Decidable (s.Own x) :=
  inferInstanceAs (Decidable (_ ∧ _))

/-- What is noted of an action. -/
def record (s : Resumption) (a : Action) (e : EntryId) : Session :=
  match a with
  | .subscribe topic _ =>
      if s.manager.entries.lookup topic = none ∧ e = ⟨s.manager.nextEntry⟩ then
        Session.new s.manager.tasks.length s.newest
      else s.session e
  | .reattach c =>
      match (s.manager.peers c).serve .unary true with
      | .error _ => s.session e
      | .ok _ =>
          if e ∈ s.manager.entries.entries.map Sigma.snd then
            Session.new s.manager.tasks.length c
          else s.session e
  | .update c topic order =>
      if s.manager.entries.lookup topic = some e ∧ c = (s.session e).link then
        { s.session e with received := (s.session e).received ++ [order] }
      else s.session e
  | a =>
      match s.manager.settles a with
      | some x =>
          if x.entry = e ∧ s.Own x then
            { s.session e with settled := (s.session e).settled ++ [x.told] }
          else s.session e
      | none => s.session e

/-- One step of the manager, with its note. -/
def step (s : Resumption) (a : Action) : Option Resumption :=
  (s.manager.step a).map fun m => ⟨m, s.record a⟩

/-- A new manager. -/
def start (m : SubscriptionManager) : Resumption := ⟨m, fun _ => Session.new 0 m.client⟩

/-- The topic and entry of the delivery at call `i`, when it is not of its entry's session:
it was dispatched before the gate was last reset, or over another client than the one
attached then. -/
def outlives (s : Resumption) (i : ℕ) : Option (TopicName × EntryId) :=
  match s.manager.tasks[i]? with
  | some (.delivery via topic e _ _) =>
      if (s.session e).start ≤ i ∧ via = (s.session e).link then none else some (topic, e)
  | _ => none

/-- The condition on a step: a delivery that is not of its entry's session neither fails to
decode nor fails in its handler, and its handler returns only when its entry has left the
map. -/
def Fenced (s : Resumption) : Action → Prop
  | .decoded i ok => ∀ x ∈ s.outlives i, ok = true
  | .handled i ok => ∀ x ∈ s.outlives i, ok = true ∧ s.manager.entries.lookup x.1 ≠ some x.2
  | _ => True

instance (s : Resumption) : (a : Action) → Decidable (s.Fenced a)
  | .decoded i ok => inferInstanceAs (Decidable (∀ x ∈ s.outlives i, ok = true))
  | .handled i _ => inferInstanceAs (Decidable (∀ x ∈ s.outlives i, _ ∧ _))
  | .subscribe .. | .unsubscribe .. | .reattach .. | .close .. | .serve .. | .complete ..
  | .update .. | .emit .. | .settle .. | .resume .. | .endRefused .. | .observed .. =>
    inferInstanceAs (Decidable True)

/-! ### Sessions along a step -/

theorem step_cases {s s' : Resumption} {a : Action} (h : s.step a = some s') :
    s.manager.step a = some s'.manager ∧ s'.session = s.record a := by
  obtain ⟨m, hm, rfl⟩ := Option.map_eq_some_iff.mp h
  exact ⟨hm, rfl⟩

/-- What a step makes of the session of an entry: a new one together with a new gate, or
one more stamp, or one more settlement of its own. -/
inductive Records (s : Resumption) (a : Action) (e : EntryId) : Session → Prop
  /-- The gate is new. -/
  | begins (c : ClientId) (hgate : s.manager.gateAfter a e = TopicGate.new)
      (ha : ∀ c topic order, a ≠ .update c topic order) :
      Records s a e (Session.new s.manager.tasks.length c)
  /-- An update arrived. -/
  | receives {c : ClientId} {topic : TopicName} (order : ℕ) (ha : a = .update c topic order)
      (hlink : c = (s.session e).link) (hgate : s.manager.gateAfter a e = (s.manager.heap e).gate) :
      Records s a e { s.session e with received := (s.session e).received ++ [order] }
  /-- A delivery of the session settled. -/
  | settles (x : Settles) (hx : s.manager.settles a = some x) (he : x.entry = e) (hown : s.Own x)
      (hgate : s.manager.gateAfter a e = (s.manager.heap e).gate.settle x.told) :
      Records s a e { s.session e with settled := (s.session e).settled ++ [x.told] }
  /-- A delivery of another session settled. -/
  | foreign (x : Settles) (hx : s.manager.settles a = some x) (he : x.entry = e) (hown : ¬ s.Own x)
      (hgate : s.manager.gateAfter a e = (s.manager.heap e).gate.settle x.told) :
      Records s a e (s.session e)
  /-- Nothing happened to the entry. -/
  | idle (hgate : s.manager.gateAfter a e = (s.manager.heap e).gate)
      (hupdate : ∀ c topic order, a = .update c topic order →
        ¬ (s.manager.entries.lookup topic = some e ∧ c = (s.session e).link)) :
      Records s a e (s.session e)

theorem records_record (s : Resumption) (a : Action) (e : EntryId) :
    Records s a e (s.record a e) := by
  have hrest : (∀ topic g, a ≠ .subscribe topic g) → (∀ c, a ≠ .reattach c) →
      (∀ c topic order, a ≠ .update c topic order) → Records s a e (s.record a e) := by
    intro hsub hre hup
    have hgate : s.manager.gateAfter a e = match s.manager.settles a with
        | some x =>
          if x.entry = e then (s.manager.heap e).gate.settle x.told else (s.manager.heap e).gate
        | none => (s.manager.heap e).gate := by
      cases a with
      | subscribe topic g => exact absurd rfl (hsub topic g)
      | reattach c => exact absurd rfl (hre c)
      | _ => rfl
    have hrecord : s.record a e = match s.manager.settles a with
        | some x =>
          if x.entry = e ∧ s.Own x then
            { s.session e with settled := (s.session e).settled ++ [x.told] }
          else s.session e
        | none => s.session e := by
      cases a with
      | subscribe topic g => exact absurd rfl (hsub topic g)
      | reattach c => exact absurd rfl (hre c)
      | update c topic order => exact absurd rfl (hup c topic order)
      | _ => rfl
    rw [hrecord]
    cases hx : s.manager.settles a with
    | none =>
      rw [hx] at hgate
      exact .idle hgate fun c topic order h => absurd h (hup c topic order)
    | some x =>
      rw [hx] at hgate
      by_cases he : x.entry = e
      · simp only [he, if_true] at hgate
        by_cases hown : s.Own x
        · simp only [he, hown, and_self, if_true]
          exact .settles x hx he hown hgate
        · simp only [hown, and_false, if_false]
          exact .foreign x hx he hown hgate
      · simp only [he, if_false] at hgate
        simp only [he, false_and, if_false]
        exact .idle hgate fun c topic order h => absurd h (hup c topic order)
  cases a with
  | subscribe topic g =>
    simp only [record]
    split
    · next hnew => exact .begins _ (by simp [SubscriptionManager.gateAfter, hnew]) (by simp)
    · next hold => exact .idle (by simp [SubscriptionManager.gateAfter, hold]) (by simp)
  | reattach c =>
    simp only [record]
    cases hs : (s.manager.peers c).serve .unary true with
    | error x => exact .idle (by simp [SubscriptionManager.gateAfter, hs]) (by simp)
    | ok p =>
      simp only
      split
      · next hmem => exact .begins c (by simp [SubscriptionManager.gateAfter, hs, hmem]) (by simp)
      · next hmem => exact .idle (by simp [SubscriptionManager.gateAfter, hs, hmem]) (by simp)
  | update c topic order =>
    simp only [record]
    split
    · next hup => exact .receives order rfl hup.2 rfl
    · next hup =>
      refine .idle rfl ?_
      rintro c' topic' order' ⟨rfl, rfl, rfl⟩
      exact hup
  | _ => exact hrest (by simp) (by simp) (by simp)

/-! ### What reaches a gate -/

/-- In a fenced step the only deliveries that reach their gates are of the session. -/
theorem Fenced.own {s : Resumption} {a : Action} {x : Settles} (h : s.Fenced a)
    (hx : s.manager.settles a = some x) : s.Own x := by
  by_contra hown
  unfold SubscriptionManager.settles at hx
  split at hx
  · next i =>
    split at hx
    · next via topic e order hk =>
      cases hx
      have hout : s.outlives i = some (topic, e) := by
        simp only [outlives, hk]
        exact if_neg hown
      exact Bool.false_ne_true (h _ hout)
    · cases hx
  · next i ok =>
    split at hx
    · next via topic e order hk =>
      have hforeign : ¬ ((s.session e).start ≤ i ∧ via = (s.session e).link) →
          ok = true ∧ s.manager.entries.lookup topic ≠ some e := by
        intro hnot
        refine h (topic, e) ?_
        simp only [outlives, hk, Option.mem_def]
        exact if_neg hnot
      split at hx
      · split at hx
        · next hmapped =>
          cases hx
          exact (hforeign hown).2 hmapped
        · cases hx
      · next hok =>
        cases hx
        exact hok (hforeign hown).1
    · cases hx
  · cases hx

/-- In a step that is not fenced, a delivery that is not of the session reaches its gate. -/
theorem settles_of_not_fenced {s s' : Resumption} {a : Action} (h : ¬ s.Fenced a)
    (hstep : s.manager.step a = some s'.manager) :
    ∃ x, s.manager.settles a = some x ∧ ¬ s.Own x := by
  have hout : ∀ {i : ℕ} {x : TopicName × EntryId}, s.outlives i = some x →
      ∃ via order stage, s.manager.tasks[i]? = some (.delivery via x.1 x.2 order stage) ∧
        ¬ ((s.session x.2).start ≤ i ∧ via = (s.session x.2).link) := by
    intro i x hx
    unfold outlives at hx
    split at hx
    · next via topic e order stage hk =>
      split at hx
      · cases hx
      · next hnot =>
        cases hx
        exact ⟨via, order, stage, hk, hnot⟩
    · cases hx
  -- the delivery waits for this very action, so it settles by it
  cases a with
  | decoded i ok =>
    simp only [Fenced, not_forall] at h
    obtain ⟨x, hx, hok⟩ := h
    obtain ⟨via, order, stage, hk, hnot⟩ := hout hx
    obtain rfl : ok = false := by simpa using hok
    simp only [SubscriptionManager.step, hk] at hstep
    split at hstep
    · next hw =>
      obtain rfl : stage = .decoding := by simpa [SubscriptionManager.waits] using hw
      exact ⟨⟨i, via, x.2, ⟨order, false⟩⟩, by simp [SubscriptionManager.settles, hk], hnot⟩
    · cases hstep
  | handled i ok =>
    simp only [Fenced, not_forall] at h
    obtain ⟨x, hx, hok⟩ := h
    obtain ⟨via, order, stage, hk, hnot⟩ := hout hx
    simp only [SubscriptionManager.step, hk] at hstep
    split at hstep
    · next hw =>
      obtain rfl : stage = .handling := by simpa [SubscriptionManager.waits] using hw
      cases ok with
      | true =>
        have hmapped : s.manager.entries.lookup x.1 = some x.2 := by
          by_contra hgone
          exact hok ⟨rfl, hgone⟩
        exact ⟨⟨i, via, x.2, ⟨order, true⟩⟩, by simp [SubscriptionManager.settles, hk, hmapped],
          hnot⟩
      | false =>
        exact ⟨⟨i, via, x.2, ⟨order, false⟩⟩, by simp [SubscriptionManager.settles, hk], hnot⟩
    · cases hstep
  | _ => exact absurd trivial h

/-- A delivery that settles tells its gate so. -/
theorem gate_of_settles {s s' : Resumption} {a : Action} {x : Settles}
    (hx : s.manager.settles a = some x) (hstep : s.manager.step a = some s'.manager)
    (e : EntryId) : (s'.manager.heap e).gate =
      if x.entry = e then (s.manager.heap e).gate.settle x.told else (s.manager.heap e).gate := by
  rw [SubscriptionManager.gate_step hstep]
  cases a with
  | decoded i ok => simp only [SubscriptionManager.gateAfter, hx]
  | handled i ok => simp only [SubscriptionManager.gateAfter, hx]
  | _ => cases hx

/-! ### The gates know their own sessions -/

/-- The gate was told what the entry's own session settled, and every call of the session
carries a stamp the session received. -/
structure SessionOnly (s : Resumption) (e : EntryId) : Prop where
  /-- The gate. -/
  gate : (s.manager.heap e).gate = gateOf (s.session e).settled
  /-- What was settled was received. -/
  settled : ∀ x ∈ (s.session e).settled, x.order ∈ (s.session e).received
  /-- What is under way was received. -/
  carried : ∀ i order, (s.session e).start ≤ i →
    s.manager.carriedAt i = some ((s.session e).link, e, order) →
      order ∈ (s.session e).received

/-- The call that settles carries the stamp it tells the gate. -/
theorem carriedAt_of_settles {m : SubscriptionManager} {a : Action} {x : Settles}
    (h : m.settles a = some x) : m.carriedAt x.call = some (x.via, x.entry, x.told.order) := by
  unfold SubscriptionManager.settles at h
  unfold SubscriptionManager.carriedAt
  split at h
  · split at h
    · next hk => cases h; simp [hk, Task.carried]
    · cases h
  · split at h
    · next hk =>
      split at h
      · split at h
        · cases h; simp [hk, Task.carried]
        · cases h
      · cases h; simp [hk, Task.carried]
    · cases h
  · cases h

theorem not_update_of_settles {m : SubscriptionManager} {a : Action} {x : Settles}
    (h : m.settles a = some x) (c : ClientId) (topic : TopicName) (order : ℕ) :
    a ≠ .update c topic order := by
  rintro rfl
  cases h

theorem carriedAt_lt {m : SubscriptionManager} {i : ℕ} {x : ClientId × EntryId × ℕ}
    (h : m.carriedAt i = some x) : i < m.tasks.length := by
  obtain ⟨k, hk, _⟩ := Option.bind_eq_some_iff.mp h
  exact (List.getElem?_eq_some_iff.mp hk).1

/-- What the calls of a session carry was received, one step on. -/
theorem carried_advance {s s' : Resumption} {a : Action} {e : EntryId} (h : s.SessionOnly e)
    (hstep : s.manager.step a = some s'.manager)
    (hupdate : ∀ c topic order, a = .update c topic order →
      ¬ (s.manager.entries.lookup topic = some e ∧ c = (s.session e).link))
    {i order : ℕ} (hi : (s.session e).start ≤ i)
    (hx : s'.manager.carriedAt i = some ((s.session e).link, e, order)) :
    order ∈ (s.session e).received := by
  rcases SubscriptionManager.carried_step hstep hx with hold | ⟨_, topic, rfl, he⟩
  · exact h.carried i order hi hold
  · exact absurd ⟨he, rfl⟩ (hupdate _ topic order rfl)

/-- A fenced step keeps the gates to their sessions. -/
theorem SessionOnly.step {s s' : Resumption} {a : Action} {e : EntryId} (h : s.SessionOnly e)
    (hfenced : s.Fenced a) (hstep : s.step a = some s') : s'.SessionOnly e := by
  obtain ⟨hm, hsession⟩ := step_cases hstep
  have hgate := SubscriptionManager.gate_step hm e
  have hrec : Records s a e (s'.session e) := by
    rw [hsession]
    exact records_record s a e
  generalize hr : s'.session e = x at hrec
  cases hrec with
  | begins c hnew ha =>
    refine ⟨?_, ?_, ?_⟩
    · rw [hgate, hr, hnew]
      rfl
    · rw [hr]
      intro x hx
      cases hx
    · rw [hr]
      intro i order hi hx
      -- a call that was there before the session does not belong to it
      rcases SubscriptionManager.carried_step hm hx with hold | ⟨_, topic, rfl, _⟩
      · have hlt := carriedAt_lt hold
        have hge : s.manager.tasks.length ≤ i := hi
        omega
      · exact absurd rfl (ha _ topic order)
  | @receives c topic order ha hlink hsame =>
    refine ⟨?_, ?_, ?_⟩
    · rw [hgate, hr, hsame]
      exact h.gate
    · rw [hr]
      intro x hx
      exact List.mem_append_left _ (h.settled x hx)
    · rw [hr]
      intro i order' hi hx
      rcases SubscriptionManager.carried_step hm hx with hold | ⟨_, topic', heq, _⟩
      · exact List.mem_append_left _ (h.carried i order' hi hold)
      · rw [ha] at heq
        simp only [Action.update.injEq] at heq
        rw [heq.2.2]
        exact List.mem_append_right _ (List.mem_singleton_self _)
  | settles x hx he hown hsettle =>
    have hnot := not_update_of_settles hx
    subst he
    have hcarried := carriedAt_of_settles hx
    rw [hown.2] at hcarried
    refine ⟨?_, ?_, ?_⟩
    · rw [hgate, hr, hsettle, h.gate, gateOf_append]
    · rw [hr]
      intro y hy
      rcases List.mem_append.mp hy with hy | hy
      · exact h.settled y hy
      · rw [List.mem_singleton.mp hy]
        exact h.carried x.call x.told.order hown.1 hcarried
    · rw [hr]
      intro i order hi hy
      exact carried_advance h hm (fun c topic n ha => absurd ha (hnot c topic n)) hi hy
  | foreign x hx he hown hsettle => exact absurd (hfenced.own hx) hown
  | idle hsame hupdate =>
    refine ⟨?_, ?_, ?_⟩
    · rw [hgate, hr, hsame]
      exact h.gate
    · rw [hr]
      exact h.settled
    · rw [hr]
      intro i order hi hy
      exact carried_advance h hm hupdate hi hy

theorem sessionOnly_start {peers : ClientId → Peer} {c : ClientId} {m : SubscriptionManager}
    (hnew : SubscriptionManager.new peers c = .ok m) (e : EntryId) : (start m).SessionOnly e := by
  obtain ⟨p, _, rfl⟩ := SubscriptionManager.new_cases hnew
  refine ⟨rfl, ?_, ?_⟩
  · intro x hx
    cases hx
  · intro i order _ hx
    cases hx

/-! ### Every run -/

/-- The call an action moves on. -/
def mover : Action → Option ℕ
  | .emit i | .settle i _ | .resume i | .endRefused i | .observed i | .decoded i _
  | .handled i _ => some i
  | _ => none

/-- The call that settles is the one that moves. -/
theorem mover_of_settles {m : SubscriptionManager} {a : Action} {x : Settles}
    (h : m.settles a = some x) : mover a = some x.call := by
  unfold SubscriptionManager.settles at h
  split at h
  · split at h
    · cases h; rfl
    · cases h
  · split at h
    · split at h
      · split at h
        · cases h; rfl
        · cases h
      · cases h; rfl
    · cases h
  · cases h

/-- A delivery that was dispatched before its entry's session leaves every gate as it is when
it moves in a fenced step. -/
theorem gate_of_outlived {s s' : Resumption} {a : Action} {i : ℕ} {via : ClientId} {e : EntryId}
    {order : ℕ} (hfenced : s.Fenced a) (hstep : s.manager.step a = some s'.manager)
    (hmove : mover a = some i) (hcarried : s.manager.carriedAt i = some (via, e, order))
    (hold : i < (s.session e).start) (e' : EntryId) :
    (s'.manager.heap e').gate = (s.manager.heap e').gate := by
  have hsettles : s.manager.settles a = none := by
    cases hx : s.manager.settles a with
    | none => rfl
    | some x =>
      have hcall : x.call = i := by
        have h := mover_of_settles hx
        rw [hmove] at h
        exact (Option.some.inj h).symm
      have hentry : x.entry = e := by
        have h := carriedAt_of_settles hx
        rw [hcall, hcarried] at h
        simp only [Option.some.injEq, Prod.mk.injEq] at h
        exact h.2.1.symm
      have hstart := (hfenced.own hx).1
      rw [hcall, hentry] at hstart
      omega
  rw [SubscriptionManager.gate_step hstep]
  cases a with
  | emit j => rfl
  | settle j o => rfl
  | resume j => rfl
  | endRefused j => rfl
  | observed j => rfl
  | decoded j ok => simp only [SubscriptionManager.gateAfter, hsettles]
  | handled j ok => simp only [SubscriptionManager.gateAfter, hsettles]
  | _ => cases hmove

/-- **A reattach and the deliveries before it.**  In every state of a run of fenced steps,
the classification of any stamp is the one of a gate that knows only what the entry's own
session settled, all of it received over the session's connection; and a delivery that was
dispatched before the session began moves no gate when it goes on.  In any run, a step that
is not fenced has a delivery of another session reach its gate, and the gate does not stay
as the reset left it. -/
theorem reattach_fences_deliveries (peers : ClientId → Peer) (c : ClientId)
    (m₀ : SubscriptionManager) (hnew : SubscriptionManager.new peers c = .ok m₀) :
    (∀ s, Reaches step Fenced (start m₀) s →
      (∀ e order, (s.manager.heap e).gate.classify order =
          (gateOf (s.session e).settled).classify order ∧
        ∀ x ∈ (s.session e).settled, x.order ∈ (s.session e).received) ∧
      ∀ a s' i via e order, s.Fenced a → s.step a = some s' → mover a = some i →
        s.manager.carriedAt i = some (via, e, order) → i < (s.session e).start →
        (s'.manager.heap e).gate = (s.manager.heap e).gate) ∧
    ∀ s a s', Reachable step (start m₀) s → s.step a = some s' → ¬ s.Fenced a →
      ∃ x, s.manager.settles a = some x ∧ ¬ s.Own x ∧
        (s'.manager.heap x.entry).gate = (s.manager.heap x.entry).gate.settle x.told ∧
        ((s.manager.heap x.entry).gate = TopicGate.new →
          (s'.manager.heap x.entry).gate ≠ TopicGate.new) := by
  refine ⟨?_, ?_⟩
  · intro s hs
    have honly : ∀ e, s.SessionOnly e :=
      Reaches.invariant (I := fun s => ∀ e, s.SessionOnly e) (sessionOnly_start hnew)
        (fun _ _ _ _ h hf hst e => (h e).step hf hst) hs
    refine ⟨?_, ?_⟩
    · intro e order
      rw [(honly e).gate]
      exact ⟨rfl, (honly e).settled⟩
    · intro a s' i via e order hf hst hmove hcarried hold
      exact gate_of_outlived hf (step_cases hst).1 hmove hcarried hold e
  · intro s a s' hs hst hf
    obtain ⟨x, hx, hown⟩ := settles_of_not_fenced hf (step_cases hst).1
    have hgate := gate_of_settles hx (step_cases hst).1 x.entry
    rw [if_pos rfl] at hgate
    refine ⟨x, hx, hown, hgate, ?_⟩
    -- a new gate knows no stamp, so whatever it is told it keeps
    intro hfresh hstays
    rw [hgate, hfresh] at hstays
    have hkeeps := (TopicGate.settle_eq_self_iff (tidy_gateOf []) x.told).mp hstays
    cases hkeeps

/-- Two deliveries of the first connection: one settles before the reattach, the other after
its entry left the map. -/
theorem late_delivery_behind_the_fence :
    ∃ m₀ s, SubscriptionManager.new (fun _ => Peer.fresh) ⟨0⟩ = .ok m₀ ∧
      Reaches step Fenced (start m₀) s ∧ (s.session ⟨0⟩).link = ⟨1⟩ ∧
      (s.session ⟨0⟩).received = [1] ∧
      ∀ order, (s.manager.heap ⟨0⟩).gate.classify order = (gateOf [⟨1, true⟩]).classify order := by
  have hrun : ((SubscriptionManager.new (fun _ => Peer.fresh) ⟨0⟩).toOption.bind fun m₀ =>
      (runs (restrict step Fenced) (start m₀)
        [.subscribe TopicName.prices false, .update ⟨0⟩ TopicName.prices 5, .decoded 1 true,
          .handled 1 true, .update ⟨0⟩ TopicName.prices 6, .decoded 2 true, .reattach ⟨1⟩,
          .update ⟨1⟩ TopicName.prices 1, .decoded 5 true, .handled 5 true,
          .unsubscribe TopicName.prices, .handled 2 true]).map fun s => s.session ⟨0⟩) =
        some ⟨3, ⟨1⟩, [1], [⟨1, true⟩]⟩ := by
    decide +kernel
  obtain ⟨m₀, hm₀, hmap⟩ := Option.bind_eq_some_iff.mp hrun
  obtain ⟨s, hs, hobs⟩ := Option.map_eq_some_iff.mp hmap
  have hnew := SubscriptionManager.new_of_toOption hm₀
  have hreach := Reaches.of_runs _ .start hs
  have hmain := (reattach_fences_deliveries (fun _ => Peer.fresh) ⟨0⟩ m₀ hnew).1 s hreach
  refine ⟨m₀, s, hnew, hreach, by rw [hobs], by rw [hobs], ?_⟩
  intro order
  rw [(hmain.1 ⟨0⟩ order).1, hobs]

/-- A delivery that outlives a reattach: it was dispatched before the gate was reset, it
commits its stamp, and the first stamp of the new connection is stale although nothing was
received over it. -/
theorem old_delivery_moves_the_gate :
    ∃ m₀ s s' x, SubscriptionManager.new (fun _ => Peer.fresh) ⟨0⟩ = .ok m₀ ∧
      Reachable step (start m₀) s ∧ s.step (.handled 1 true) = some s' ∧
      s.manager.settles (.handled 1 true) = some x ∧ x.call < (s.session x.entry).start ∧
      (s.manager.heap x.entry).gate = TopicGate.new ∧
      (s'.manager.heap x.entry).gate ≠ (s.manager.heap x.entry).gate ∧
      (s'.session x.entry).link = ⟨1⟩ ∧ (s'.session x.entry).received = [] ∧
      (s'.manager.heap x.entry).gate.classify 1 = .stale ∧
      (gateOf (s'.session x.entry).settled).classify 1 = .fresh := by
  have hrun : ((SubscriptionManager.new (fun _ => Peer.fresh) ⟨0⟩).toOption.bind fun m₀ =>
      (runs step (start m₀)
        [.subscribe TopicName.prices false, .update ⟨0⟩ TopicName.prices 5, .decoded 1 true,
          .reattach ⟨1⟩]).bind fun s =>
        (s.step (.handled 1 true)).map fun s' =>
          (s.manager.settles (.handled 1 true), (s.session ⟨0⟩).start, (s.manager.heap ⟨0⟩).gate,
            (s'.manager.heap ⟨0⟩).gate, s'.session ⟨0⟩)) =
      some (some ⟨1, ⟨0⟩, ⟨0⟩, ⟨5, true⟩⟩, 2, TopicGate.new, ⟨some 5, none⟩,
        ⟨2, ⟨1⟩, [], []⟩) := by
    decide +kernel
  obtain ⟨m₀, hm₀, hbind⟩ := Option.bind_eq_some_iff.mp hrun
  obtain ⟨s, hs, hmap⟩ := Option.bind_eq_some_iff.mp hbind
  obtain ⟨s', hs', hobs⟩ := Option.map_eq_some_iff.mp hmap
  simp only [Prod.mk.injEq] at hobs
  obtain ⟨hx, hstart, hgate, hgate', hsession⟩ := hobs
  refine ⟨m₀, s, s', _, SubscriptionManager.new_of_toOption hm₀, Reachable.of_runs hs, hs', hx,
    ?_, hgate, ?_, ?_, ?_, ?_, ?_⟩
  · rw [hstart]
    decide
  · rw [hgate, hgate']
    decide
  · rw [hsession]
  · rw [hsession]
  · rw [hgate']
    decide
  · rw [hsession]
    decide

end Resumption
end Client
end TightbeamExt
