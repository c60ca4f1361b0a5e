import TightbeamExt.Base.Simulation
import TightbeamExt.Pubsub.Session

/-!
# Serving many connections

Any number of `serve` calls run on one registry, with the handlers of all their streams side by
side, while updates land, the delivery policy votes connections off and `quiesce` completes the
topics.  As for one call, fewer than 2^64 ids are allocated.

## Main definitions

* `Hub`, `Hub.step` — `serve` calls on one registry.
* `Hub.own j` — the part of a move that concerns the `j`-th call, as it would be if the call
  were the only one.

## Main results

* `serve_isolated` — **a connection is served as if it were alone on the registry**.
* `serve_leaves_nothing` — **a call that returned leaves nothing behind**; the registry is as
  empty as it began once no call is being served.
-/

namespace TightbeamExt
namespace Pubsub

open Transition

/-! ### All calls on a registry -/

/-- A registry and the `serve` calls on it. -/
structure Hub (ρ : Type) where
  /-- The registry. -/
  registry : TopicRegistry
  /-- The next connection number. -/
  nextConnection : ℕ
  /-- The calls, in the order they were made. -/
  calls : List (ServedConnection ρ)

/-- Who moves. -/
inductive HubAction (ρ : Type)
  /-- `serve` is called: with an identity by `serve_connection_as`, without by
  `serve_connection`. -/
  | serve (handle : MuxHandle) (identity : Option Octets)
  /-- A call goes on. -/
  | on (i : ℕ) (a : ServedAction ρ)
  /-- An update lands on this node. -/
  | deliver (topic : Topic) (order : ℕ)
  /-- The delivery policy voted a connection off. -/
  | disconnect (c : ConnectionId)
  /-- `quiesce` sets the draining flag. -/
  | quiesce
  /-- `quiesce` completes a topic. -/
  | complete (topic : Topic) (order : ℕ)

namespace Hub

variable {ρ : Type}

/-- One step.  `publishes` says whether a `PublishPolicy` is installed. -/
def step (publishes : Bool) (limit : ℕ) (s : Hub ρ) : HubAction ρ → Option (Hub ρ)
  | .serve handle identity =>
      some { s with calls := s.calls ++ [⟨handle, identity, .called, []⟩] }
  | .on i a =>
      match s.calls[i]? with
      | some x =>
          (x.step publishes limit s.registry s.nextConnection a).map fun p =>
            ⟨p.2.1, p.2.2, s.calls.set i p.1⟩
      | none => none
  | .deliver topic order =>
      if s.registry.draining then some s
      else some { s with registry := s.registry.setLastOrder topic fun last => max last order }
  | .disconnect c => some { s with registry := s.registry.dropConnection c }
  | .quiesce => some { s with registry := { s.registry with draining := true } }
  | .complete topic order =>
      if s.registry.draining then
        some { s with registry := s.registry.setLastOrder topic fun _ => order }
      else none

/-- A new registry. -/
def start : Hub ρ := ⟨⟨false, 1, State.empty⟩, 1, []⟩

end Hub

namespace Hub

open TopicRegistry

variable {ρ : Type} {publishes : Bool} {limit : ℕ} {s s' t : Hub ρ} {a : HubAction ρ}

/-! ### What every run keeps -/

/-- What every run keeps. -/
structure Sound (publishes : Bool) (limit : ℕ) (s : Hub ρ) : Prop where
  /-- The maps agree. -/
  registry : s.registry.Sound limit
  /-- Numbers in use were handed out. -/
  bounded : ∀ (i : ℕ) x c, s.calls[i]? = some x → x.phase.connection = some c →
    c.val < s.nextConnection
  /-- No two calls have one number. -/
  distinct : ∀ (i j : ℕ) x y c, s.calls[i]? = some x → s.calls[j]? = some y →
    x.phase.connection = some c → y.phase.connection = some c → i = j
  /-- A connection in the registry is one that a call inserted and has not dropped. -/
  served : ∀ c e, s.registry.entry c = some e → ∃ (i : ℕ) (x : ServedConnection ρ),
    s.calls[i]? = some x ∧ x.phase.served = some c ∧ e.handle = x.handle ∧ e.identity = x.identity
  /-- Streams go where they belong. -/
  routed : ∀ x ∈ s.calls, ∀ stream ∈ x.streams,
    stream.Routed publishes x.phase.connection x.handle

theorem connection_of_served {p : ServePhase} {c : ConnectionId} (h : p.served = some c) :
    p.connection = some c := by
  cases p with
  | called => cases h
  | numbered c => cases h
  | serving c => exact h
  | leaving c => exact h
  | left c => cases h

/-- A number yet to come is nobody's. -/
theorem Sound.free (h : Sound publishes limit s) : s.registry.entry ⟨s.nextConnection⟩ = none := by
  by_contra hne
  obtain ⟨e, he⟩ := Option.ne_none_iff_exists'.mp hne
  obtain ⟨i, x, hx, hserved, -⟩ := h.served _ _ he
  exact absurd (h.bounded i x _ hx (connection_of_served hserved)) (Nat.lt_irrefl _)

/-- A call whose connection is not inserted, or is dropped, has none in the registry. -/
theorem Sound.unserved (h : Sound publishes limit s) {i : ℕ} {x : ServedConnection ρ}
    {c : ConnectionId} (hx : s.calls[i]? = some x) (hc : x.phase.connection = some c)
    (hnot : x.phase.served = none) : s.registry.entry c = none := by
  by_contra hne
  obtain ⟨e, he⟩ := Option.ne_none_iff_exists'.mp hne
  obtain ⟨j, y, hy, hserved, -⟩ := h.served _ _ he
  obtain rfl := h.distinct i j x y c hx hy hc (connection_of_served hserved)
  rw [hx] at hy
  cases hy
  rw [hnot] at hserved
  cases hserved

theorem sound_start : Sound publishes limit (start : Hub ρ) where
  registry := ⟨State.coherent_empty limit, by intro id sub h; simp [start, State.empty] at h⟩
  bounded := by intro i x c h; simp [start] at h
  distinct := by intro i j x y c h; simp [start] at h
  served := by intro c e h; simp [start, State.empty, entry] at h
  routed := by intro x h; simp [start] at h

/-- A step of the registry that inserts nothing. -/
theorem Sound.shrink (h : Sound publishes limit s) {r : TopicRegistry} (hr : r.Sound limit)
    (hentry : ∀ c e, r.entry c = some e → s.registry.entry c = some e) :
    Sound publishes limit { s with registry := r } where
  registry := hr
  bounded := h.bounded
  distinct := h.distinct
  served := fun c e he => h.served c e (hentry c e he)
  routed := h.routed

/-- The calls after a step of one of them. -/
theorem getElem?_on {i j : ℕ} {x x' y : ServedConnection ρ} (hx : s.calls[i]? = some x)
    (hy : (s.calls.set i x')[j]? = some y) : (j = i ∧ y = x') ∨ (j ≠ i ∧ s.calls[j]? = some y) := by
  by_cases hij : i = j
  · subst hij
    obtain ⟨hlt, -⟩ := List.getElem?_eq_some_iff.mp hx
    rw [List.getElem?_set_self hlt] at hy
    exact Or.inl ⟨rfl, (Option.some.inj hy).symm⟩
  · rw [List.getElem?_set_ne hij] at hy
    exact Or.inr ⟨Ne.symm hij, hy⟩

/-- A call has no number that is still to come. -/
theorem Sound.number_ne (h : Sound publishes limit s) {i : ℕ} {x : ServedConnection ρ}
    {c : ConnectionId} (hx : s.calls[i]? = some x) (hc : x.phase.connection = some c) :
    c ≠ ⟨s.nextConnection⟩ := by
  rintro rfl
  exact absurd (h.bounded i x _ hx hc) (Nat.lt_irrefl _)

section Moved

variable {i : ℕ} {x x' : ServedConnection ρ} {r' : TopicRegistry} {next' : ℕ}

theorem Sound.bounded_on (h : Sound publishes limit s) (hx : s.calls[i]? = some x)
    (hm : ServedConnection.Moves publishes limit s.registry s.nextConnection x x' r' next') (j : ℕ)
    (y : ServedConnection ρ) (c : ConnectionId) (hy : (s.calls.set i x')[j]? = some y)
    (hc : y.phase.connection = some c) : c.val < next' := by
  rcases getElem?_on hx hy with ⟨rfl, rfl⟩ | ⟨-, hold⟩
  · rcases hm.connection_cases hc with hcx | ⟨rfl, hn⟩
    · exact (h.bounded j x c hx hcx).trans_le hm.next_le
    · show s.nextConnection < next'
      omega
  · exact (h.bounded j y c hold hc).trans_le hm.next_le

theorem Sound.distinct_on (h : Sound publishes limit s) (hx : s.calls[i]? = some x)
    (hm : ServedConnection.Moves publishes limit s.registry s.nextConnection x x' r' next')
    (j k : ℕ) (y z : ServedConnection ρ) (c : ConnectionId)
    (hy : (s.calls.set i x')[j]? = some y) (hz : (s.calls.set i x')[k]? = some z)
    (hcy : y.phase.connection = some c) (hcz : z.phase.connection = some c) : j = k := by
  rcases getElem?_on hx hy with ⟨rfl, rfl⟩ | ⟨-, hyold⟩
  · rcases getElem?_on hx hz with ⟨rfl, rfl⟩ | ⟨-, hzold⟩
    · rfl
    · rcases hm.connection_cases hcy with hcx | ⟨hnew, -⟩
      · exact h.distinct j k x z c hx hzold hcx hcz
      · exact absurd hnew (h.number_ne hzold hcz)
  · rcases getElem?_on hx hz with ⟨rfl, rfl⟩ | ⟨-, hzold⟩
    · rcases hm.connection_cases hcz with hcx | ⟨hnew, -⟩
      · exact h.distinct j k y x c hyold hx hcy hcx
      · exact absurd hnew (h.number_ne hyold hcy)
    · exact h.distinct j k y z c hyold hzold hcy hcz

theorem Sound.served_on (h : Sound publishes limit s) (hx : s.calls[i]? = some x)
    (hm : ServedConnection.Moves publishes limit s.registry s.nextConnection x x' r' next')
    (c : ConnectionId) (e' : ConnectionEntry) (he' : r'.entry c = some e') :
    ∃ (j : ℕ) (y : ServedConnection ρ), (s.calls.set i x')[j]? = some y ∧
      y.phase.served = some c ∧ e'.handle = y.handle ∧ e'.identity = y.identity := by
  have hself : (s.calls.set i x')[i]? = some x' :=
    List.getElem?_set_self (List.getElem?_eq_some_iff.mp hx).1
  by_cases hc : x.phase.connection = some c
  · rcases hm.own c e' hc he' with ⟨hserved, hhandle, hidentity⟩ | ⟨hserved, e, he, hh, hi⟩
    · exact ⟨i, x', hself, hserved, hhandle.trans hm.made.1.symm, hidentity.trans hm.made.2.symm⟩
    · -- the connection was there, and no other call has its number
      obtain ⟨j, y, hy, hys, hyh, hyi⟩ := h.served c e he
      obtain rfl := h.distinct i j x y c hx hy hc (connection_of_served hys)
      obtain rfl : x = y := Option.some.inj (hx.symm.trans hy)
      exact ⟨i, x', hself, hserved.trans hys, hh.symm.trans (hyh.trans hm.made.1.symm),
        hi.symm.trans (hyi.trans hm.made.2.symm)⟩
  · rw [hm.others c hc] at he'
    obtain ⟨j, y, hy, hys, hyh, hyi⟩ := h.served c e' he'
    have hij : i ≠ j := by
      rintro rfl
      obtain rfl : x = y := Option.some.inj (hx.symm.trans hy)
      exact hc (connection_of_served hys)
    exact ⟨j, y, (List.getElem?_set_ne hij).trans hy, hys, hyh, hyi⟩

/-- A step of one call. -/
theorem Sound.on (h : Sound publishes limit s) (hx : s.calls[i]? = some x)
    (hm : ServedConnection.Moves publishes limit s.registry s.nextConnection x x' r' next') :
    Sound publishes limit ⟨r', next', s.calls.set i x'⟩ where
  registry := hm.sound h.registry fun c hc =>
    h.unserved hx (by rw [hc]; rfl) (by rw [hc]; rfl)
  bounded := h.bounded_on hx hm
  distinct := h.distinct_on hx hm
  served := h.served_on hx hm
  routed := by
    intro y hy
    rcases List.mem_or_eq_of_mem_set hy with hy | rfl
    · exact h.routed y hy
    · exact hm.routed (h.routed x (List.mem_of_getElem? hx))

end Moved

/-- A new call has no number. -/
theorem Sound.serve (h : Sound publishes limit s) (handle : MuxHandle) (identity : Option Octets) :
    Sound publishes limit { s with calls := s.calls ++ [⟨handle, identity, .called, []⟩] } := by
  -- the new call has no number
  have hold : ∀ (j : ℕ) y c, (s.calls ++ [⟨handle, identity, .called, []⟩])[j]? = some y →
      y.phase.connection = some c → s.calls[j]? = some y := by
    intro j y c hy hc
    rcases Nat.lt_or_ge j s.calls.length with hlt | hge
    · rwa [List.getElem?_append_left hlt] at hy
    · rw [List.getElem?_append_right hge] at hy
      rw [List.mem_singleton.mp (List.mem_of_getElem? hy)] at hc
      cases hc
  refine ⟨h.registry, ?_, ?_, ?_, ?_⟩
  · intro j y c hy hc
    exact h.bounded j y c (hold j y c hy hc) hc
  · intro j k y z c hy hz hcy hcz
    exact h.distinct j k y z c (hold j y c hy hcy) (hold k z c hz hcz) hcy hcz
  · intro c e he
    obtain ⟨j, y, hy, hrest⟩ := h.served c e he
    obtain ⟨hlt, -⟩ := List.getElem?_eq_some_iff.mp hy
    refine ⟨j, y, ?_, hrest⟩
    show (s.calls ++ _)[j]? = some y
    rw [List.getElem?_append_left hlt]
    exact hy
  · intro y hy
    rcases List.mem_append.mp hy with hy | hy
    · exact h.routed y hy
    · rw [List.mem_singleton.mp hy]
      intro stream hmem
      cases hmem

/-- A step of one call, taken apart. -/
theorem on_cases {i : ℕ} {b : ServedAction ρ} (h : step publishes limit s (.on i b) = some s') :
    ∃ x x' r' next', s.calls[i]? = some x ∧
      x.step publishes limit s.registry s.nextConnection b = some (x', r', next') ∧
      s' = ⟨r', next', s.calls.set i x'⟩ := by
  simp only [step] at h
  split at h
  · next x hx =>
    obtain ⟨⟨x', r', next'⟩, hst, rfl⟩ := Option.map_eq_some_iff.mp h
    exact ⟨x, x', r', next', hx, hst, rfl⟩
  · cases h

/-- An update that lands and a topic that completes leave the connections as they are. -/
theorem stamp_cases {topic : Topic} {order : ℕ} (h : step publishes limit s a = some s')
    (ha : a = .deliver topic order ∨ a = .complete topic order) :
    ∃ r', s' = { s with registry := r' } ∧ r'.draining = s.registry.draining ∧
      (∀ c, r'.entry c = s.registry.entry c) ∧ (s.registry.Sound limit → r'.Sound limit) := by
  have hset : ∀ f : ℕ → ℕ, s.registry.Sound limit → (s.registry.setLastOrder topic f).Sound limit :=
    fun f hs => ⟨hs.coherent.setLastOrder topic f, hs.fresh⟩
  rcases ha with rfl | rfl
  · simp only [step] at h
    split at h
    · cases h
      exact ⟨s.registry, rfl, rfl, fun _ => rfl, id⟩
    · cases h
      exact ⟨_, rfl, rfl, fun _ => rfl, hset _⟩
  · simp only [step] at h
    split at h
    · cases h
      exact ⟨_, rfl, rfl, fun _ => rfl, hset _⟩
    · cases h

theorem Sound.step (h : Sound publishes limit s) (hst : step publishes limit s a = some s') :
    Sound publishes limit s' := by
  cases a with
  | serve handle identity =>
    cases hst
    exact h.serve handle identity
  | on i b =>
    obtain ⟨x, x', r', next', hx, hstep, rfl⟩ := on_cases hst
    exact h.on hx (ServedConnection.moves_of_step hstep)
  | deliver topic order =>
    obtain ⟨r', rfl, -, hentry, hsound⟩ := stamp_cases hst (Or.inl rfl)
    exact h.shrink (hsound h.registry) fun c e he => (hentry c).symm.trans he
  | disconnect c =>
    cases hst
    refine h.shrink (h.registry.dropConnection c) ?_
    intro c' e he
    rw [dropConnection_entry] at he
    split at he
    · cases he
    · exact he
  | quiesce =>
    cases hst
    exact h.shrink ⟨h.registry.coherent, h.registry.fresh⟩ fun c e he => he
  | complete topic order =>
    obtain ⟨r', rfl, -, hentry, hsound⟩ := stamp_cases hst (Or.inr rfl)
    exact h.shrink (hsound h.registry) fun c e he => (hentry c).symm.trans he

/-- What holds at some time holds later. -/
theorem Sound.later (h : Sound publishes limit s) (hlater : Reachable (Hub.step publishes limit) s s') :
    Sound publishes limit s' :=
  Reaches.invariant (I := Sound publishes limit) h (fun _ _ _ _ hs _ hst => hs.step hst) hlater

theorem sound_of_reachable (h : Reachable (step publishes limit) start s) :
    Sound publishes limit s :=
  sound_start.later h

/-! ### One call alone -/

/-- The part of a move that concerns the `j`-th call, as it is when the call is the only one. -/
def own (j : ℕ) (m : Move (Hub ρ) (HubAction ρ)) : List (HubAction ρ) :=
  match m.action with
  | .serve handle identity => if m.before.calls.length = j then [.serve handle identity] else []
  | .on i b => if i = j then [.on 0 b] else []
  | .deliver _ _ | .complete _ _ => []
  | .disconnect c =>
      if (m.before.calls[j]?.bind fun x => x.phase.connection) = some c then [.disconnect ⟨1⟩]
      else []
  | .quiesce => [.quiesce]

/-- `t` has the `j`-th call of `s` and no other. -/
structure Lone (j : ℕ) (s t : Hub ρ) : Prop where
  /-- The call, under the first number. -/
  calls : t.calls = (s.calls[j]?).toList.map (ServedConnection.renumber ⟨1⟩)
  /-- Both drain or neither. -/
  draining : t.registry.draining = s.registry.draining
  /-- Before the call, nothing happened. -/
  before : s.calls[j]? = none → t.nextConnection = 1 ∧ t.registry.entry ⟨1⟩ = none
  /-- The registries agree on its connection. -/
  alone : ∀ x, s.calls[j]? = some x → x.Alone s.registry t.registry t.nextConnection

/-- A step that leaves the `j`-th call and its connection alone. -/
theorem Lone.frame {j : ℕ} (h : Lone j s t) (hcalls : s'.calls[j]? = s.calls[j]?)
    (hdraining : s'.registry.draining = s.registry.draining)
    (hentry : ∀ x c, s.calls[j]? = some x → x.phase.connection = some c →
      s'.registry.entry c = s.registry.entry c) : Lone j s' t where
  calls := by rw [hcalls]; exact h.calls
  draining := h.draining.trans hdraining.symm
  before := by rw [hcalls]; exact h.before
  alone := by
    intro x hx
    rw [hcalls] at hx
    have hold := h.alone x hx
    refine ⟨hold.draining.trans hdraining.symm, hold.called, ?_⟩
    intro c hc
    rw [hentry x c hx hc]
    exact hold.entry c hc

theorem Lone.on {j : ℕ} (h : Lone j s t) (hs : Sound publishes limit s) {b : ServedAction ρ}
    (hst : step publishes limit s (.on j b) = some s') :
    ∃ t', step publishes limit t (.on 0 b) = some t' ∧ Lone j s' t' := by
  obtain ⟨x, x', r', next', hx, hstep, rfl⟩ := on_cases hst
  obtain ⟨r₀', next₀', hstep₀, halone⟩ := ServedConnection.step_alone (h.alone x hx) hs.free hstep
  have hcalls : t.calls = [x.renumber ⟨1⟩] := by rw [h.calls, hx]; rfl
  obtain ⟨hlt, -⟩ := List.getElem?_eq_some_iff.mp hx
  have hset : (s.calls.set j x')[j]? = some x' := List.getElem?_set_self hlt
  refine ⟨⟨r₀', next₀', [x'.renumber ⟨1⟩]⟩, ?_, ?_, halone.draining, ?_, ?_⟩
  · simp only [step, hcalls, List.getElem?_cons_zero, hstep₀, Option.map_some, List.set_cons_zero]
  · show [x'.renumber ⟨1⟩] = _
    simp only [hset]
    rfl
  · intro hnone
    rw [show (s.calls.set j x')[j]? = none from hnone] at hset
    cases hset
  · intro y hy
    obtain rfl : x' = y := Option.some.inj (hset.symm.trans hy)
    exact halone

theorem Lone.serve {j : ℕ} (h : Lone j s t) (hj : s.calls.length = j) (handle : MuxHandle)
    (identity : Option Octets) :
    Lone j { s with calls := s.calls ++ [⟨handle, identity, .called, []⟩] }
      { t with calls := t.calls ++ [⟨handle, identity, .called, []⟩] } := by
  have hnone : s.calls[j]? = none := List.getElem?_eq_none hj.le
  have hnew : (s.calls ++ [⟨handle, identity, .called, []⟩])[j]? =
      some ⟨handle, identity, .called, []⟩ := by
    rw [← hj]
    exact List.getElem?_concat_length
  obtain ⟨hnext, hentry⟩ := h.before hnone
  refine ⟨?_, h.draining, ?_, ?_⟩
  · show t.calls ++ _ = _
    rw [h.calls, hnone, hnew]
    rfl
  · intro hn
    rw [show (s.calls ++ [⟨handle, identity, .called, []⟩])[j]? = none from hn] at hnew
    cases hnew
  · intro x hx
    obtain rfl := Option.some.inj (hnew.symm.trans hx)
    exact ⟨h.draining, fun _ => ⟨hnext, hentry⟩, fun c hc => (by cases hc)⟩

theorem Lone.disconnect {j : ℕ} (h : Lone j s t) {c : ConnectionId}
    (hc : (s.calls[j]?.bind fun x => x.phase.connection) = some c) :
    Lone j { s with registry := s.registry.dropConnection c }
      { t with registry := t.registry.dropConnection ⟨1⟩ } := by
  obtain ⟨x, hx, hxc⟩ := Option.bind_eq_some_iff.mp hc
  refine ⟨h.calls, h.draining, ?_, ?_⟩
  · intro hnone
    rw [show s.calls[j]? = none from hnone] at hx
    cases hx
  · intro y hy
    obtain rfl : x = y := Option.some.inj (hx.symm.trans hy)
    refine ⟨h.draining, ?_, ?_⟩
    · intro hcalled
      rw [hcalled] at hxc
      cases hxc
    · intro c' hc'
      obtain rfl : c = c' := Option.some.inj (hxc.symm.trans hc')
      rw [dropConnection_entry, dropConnection_entry, if_pos rfl, if_pos rfl]

/-- **Every step of the hub is a step of the call alone, or none.** -/
theorem follows_alone (publishes : Bool) (limit j : ℕ) :
    Follows (step publishes limit) (fun _ _ => True) (start : Hub ρ)
      (fun t b t' => step publishes limit t b = some t') (Lone j) (own j) (fun b => [b]) := by
  intro s a s' t hreach hlone _ hst
  have hs := sound_of_reachable hreach
  cases a with
  | serve handle identity =>
    cases hst
    by_cases hj : s.calls.length = j
    · have hlone' := hlone.serve hj handle identity
      refine ⟨[.serve handle identity], _, Path.single rfl, ?_, hlone'⟩
      simp [own, hj]
    · refine ⟨[], t, .nil, by simp [own, hj], hlone.frame ?_ rfl fun _ _ _ _ => rfl⟩
      show (s.calls ++ _)[j]? = s.calls[j]?
      rcases Nat.lt_or_ge j s.calls.length with hlt | hge
      · exact List.getElem?_append_left hlt
      · rw [List.getElem?_eq_none hge, List.getElem?_eq_none]
        rw [List.length_append, List.length_singleton]
        omega
  | on i b =>
    by_cases hij : i = j
    · subst hij
      obtain ⟨t', ht', hlone'⟩ := hlone.on hs hst
      exact ⟨[.on 0 b], t', Path.single ht', by simp [own], hlone'⟩
    · obtain ⟨x, x', r', next', hx, hstep, rfl⟩ := on_cases hst
      have hmoves := ServedConnection.moves_of_step hstep
      refine ⟨[], t, .nil, by simp [own, hij], hlone.frame (List.getElem?_set_ne hij)
        hmoves.draining ?_⟩
      intro y c hy hc
      refine hmoves.others c ?_
      intro hxc
      exact hij (hs.distinct i j x y c hx hy hxc hc)
  | deliver topic order =>
    obtain ⟨r', rfl, hdraining, hentry, -⟩ := stamp_cases hst (Or.inl rfl)
    exact ⟨[], t, .nil, rfl, hlone.frame rfl hdraining fun _ c _ _ => hentry c⟩
  | disconnect c =>
    cases hst
    by_cases hc : (s.calls[j]?.bind fun x => x.phase.connection) = some c
    · refine ⟨[.disconnect ⟨1⟩], _, Path.single rfl, ?_, hlone.disconnect hc⟩
      simp only [own, hc, if_true]
      rfl
    · refine ⟨[], t, .nil, ?_, hlone.frame rfl rfl ?_⟩
      · simp only [own, hc, if_false]
        rfl
      · intro x c' hx hxc
        show (s.registry.dropConnection c).entry c' = _
        rw [dropConnection_entry, if_neg]
        rintro rfl
        exact hc (Option.bind_eq_some_iff.mpr ⟨x, hx, hxc⟩)
  | quiesce =>
    cases hst
    refine ⟨[.quiesce], _, Path.single rfl, rfl, hlone.calls, rfl, hlone.before, ?_⟩
    intro x hx
    have hold := hlone.alone x hx
    exact ⟨rfl, hold.called, hold.entry⟩
  | complete topic order =>
    obtain ⟨r', rfl, hdraining, hentry, -⟩ := stamp_cases hst (Or.inr rfl)
    exact ⟨[], t, .nil, rfl, hlone.frame rfl hdraining fun _ c _ _ => hentry c⟩

theorem lone_start (j : ℕ) : Lone j (start : Hub ρ) start where
  calls := rfl
  draining := rfl
  before := fun _ => ⟨rfl, rfl⟩
  alone := by intro x hx; cases hx

/-- **A connection is served as if it were alone.**  In every run of any number of `serve` calls
on one registry, in whatever order their sections, their streams' handlers and the deliveries come:
the moves that concern one call — its own, `quiesce`, and the policy's disconnecting its
connection — are by themselves a run of that call alone on a registry of its own.  There it is as
far, its streams are answered the same, and its connection is what it is in the full run: under
the same handle and identity, holding the same topics. -/
theorem serve_isolated {moves : List (Move (Hub ρ) (HubAction ρ))}
    (htrace : Trace (step publishes limit) start moves s) (j : ℕ) :
    ∃ t, runs (step publishes limit) start (moves.flatMap (own j)) = some t ∧
      t.calls = (s.calls[j]?).toList.map (ServedConnection.renumber ⟨1⟩) ∧
      ∀ x c, s.calls[j]? = some x → x.phase.connection = some c →
        t.registry.entry ⟨1⟩ = s.registry.entry c := by
  obtain ⟨bs, t, hpath, hshown, hlone⟩ :=
    (follows_alone publishes limit j).trace .start (lone_start j) htrace fun _ _ => trivial
  rw [List.flatMap_singleton'] at hshown
  refine ⟨t, ?_, hlone.calls, fun x c hx hc => (hlone.alone x hx).entry c hc⟩
  rw [← hshown]
  exact hpath.runs

/-- Two connections: the first comes, subscribes, publishes and goes, the second subscribes. -/
def twoCalls : List (HubAction Unit) :=
  [.serve ⟨7⟩ none, .serve ⟨8⟩ (some [0x41]), .on 0 .number, .on 1 .number, .on 1 .enter,
    .on 0 .enter, .on 0 (.receive Server.subPrices), .on 1 (.receive Server.subPrices),
    .on 1 (.handler 0 .poll), .on 0 (.handler 0 .poll), .on 0 (.handler 0 (.judge .allow)),
    .on 0 (.handler 0 .register), .on 1 (.handler 0 (.judge .allow)), .on 0 .finish,
    .deliver Topic.prices 3, .on 1 (.handler 0 .register), .on 0 .leave]

/-- The second of two connections is served as it would be alone. -/
theorem second_call_alone : ∃ moves s t,
    Trace (step true 1) (start : Hub Unit) moves s ∧ moves.map Move.action = twoCalls ∧
      runs (step true 1) (start : Hub Unit) (moves.flatMap (own 1)) = some t ∧
      s.registry.entry ⟨2⟩ = some ⟨⟨8⟩, some [0x41], [Topic.prices]⟩ ∧
      t.registry.entry ⟨1⟩ = some ⟨⟨8⟩, some [0x41], [Topic.prices]⟩ := by
  have hrun : (runs (restrict (step true 1) fun _ _ => True) (start : Hub Unit) twoCalls).map
      (fun s => (s.calls[1]?.map fun x => x.phase, s.registry.entry ⟨2⟩)) =
      some (some (.serving ⟨2⟩), some ⟨⟨8⟩, some [0x41], [Topic.prices]⟩) := by decide +kernel
  obtain ⟨s, hs, hobs⟩ := Option.map_eq_some_iff.mp hrun
  simp only [Prod.mk.injEq] at hobs
  obtain ⟨x, hx, hphase⟩ := Option.map_eq_some_iff.mp hobs.1
  obtain ⟨moves, htrace, -, hactions⟩ := Trace.of_runs twoCalls hs
  obtain ⟨t, ht, -, hentry⟩ := serve_isolated htrace 1
  have hsame := hentry x ⟨2⟩ hx (by rw [hphase]; rfl)
  exact ⟨moves, s, t, htrace, hactions, ht, hobs.2, hsame.trans hobs.2⟩

/-! ### A call that returned -/

/-- A call that returned stays so. -/
theorem left_of_reachable {i : ℕ} {x : ServedConnection ρ} {c : ConnectionId}
    (hx : s.calls[i]? = some x) (hleft : x.phase = .left c)
    (h : Reachable (step publishes limit) s s') :
    ∃ x', s'.calls[i]? = some x' ∧ x'.phase = .left c := by
  induction h with
  | start => exact ⟨x, hx, hleft⟩
  | @next s₁ s₂ a _ _ hst ih =>
    obtain ⟨y, hy, hyleft⟩ := ih
    cases a with
    | serve handle identity =>
      cases hst
      obtain ⟨hlt, -⟩ := List.getElem?_eq_some_iff.mp hy
      exact ⟨y, (List.getElem?_append_left hlt).trans hy, hyleft⟩
    | on k b =>
      obtain ⟨z, z', r', next', hz, hstep, rfl⟩ := on_cases hst
      obtain ⟨hlt, -⟩ := List.getElem?_eq_some_iff.mp hz
      by_cases hki : k = i
      · subst hki
        rw [hy] at hz
        cases hz
        exact ⟨z', List.getElem?_set_self hlt,
          (ServedConnection.moves_of_step hstep).left c hyleft⟩
      · exact ⟨y, (List.getElem?_set_ne hki).trans hy, hyleft⟩
    | deliver topic order =>
      obtain ⟨r', rfl, -⟩ := stamp_cases hst (Or.inl rfl)
      exact ⟨y, hy, hyleft⟩
    | disconnect c' =>
      cases hst
      exact ⟨y, hy, hyleft⟩
    | quiesce =>
      cases hst
      exact ⟨y, hy, hyleft⟩
    | complete topic order =>
      obtain ⟨r', rfl, -⟩ := stamp_cases hst (Or.inr rfl)
      exact ⟨y, hy, hyleft⟩

/-- **A call that returned leaves nothing behind.**  In every run: a connection in the registry is
that of exactly one call of `serve`, which has inserted it and not dropped it, under the handle and
the identity the call was made with; once a call has returned its connection is not in the registry
and no subscriber is its, then and at any later time, whatever its handlers still do; while no call
is being served the registry's maps are empty; and the application gets exactly the frames that no
command claims, each with the context of its own connection. -/
theorem serve_leaves_nothing (h : Reachable (step publishes limit) start s) :
    (∀ c e, s.registry.entry c = some e → ∃! i : ℕ, ∃ x, s.calls[i]? = some x ∧
      x.phase.served = some c ∧ e.handle = x.handle ∧ e.identity = x.identity) ∧
    (∀ (i : ℕ) x c, s.calls[i]? = some x → x.phase = .left c →
      ∀ s', Reachable (step publishes limit) s s' → s'.registry.entry c = none ∧
        ∀ id topic, s'.registry.state.subscribers.lookup id ≠ some ⟨topic, c⟩) ∧
    ((∀ x ∈ s.calls, x.phase.served = none) → s.registry.state = State.empty) ∧
    ∀ x ∈ s.calls, ∀ stream ∈ x.streams, stream.Routed publishes x.phase.connection x.handle := by
  have hs := sound_of_reachable h
  refine ⟨?_, ?_, ?_, hs.routed⟩
  · intro c e he
    obtain ⟨i, x, hx, hserved, hrest⟩ := hs.served c e he
    refine ⟨i, ⟨x, hx, hserved, hrest⟩, ?_⟩
    rintro j ⟨y, hy, hyserved, -⟩
    exact hs.distinct j i y x c hy hx (connection_of_served hyserved) (connection_of_served hserved)
  · intro i x c hx hleft s' hlater
    have hs' := hs.later hlater
    obtain ⟨x', hx', hleft'⟩ := left_of_reachable hx hleft hlater
    have hnone : s'.registry.entry c = none :=
      hs'.unserved hx' (by rw [hleft']; rfl) (by rw [hleft']; rfl)
    refine ⟨hnone, ?_⟩
    intro id topic hsub
    obtain ⟨k, hk, -⟩ := hs'.registry.coherent.holds hsub
    rw [entry, hk] at hnone
    cases hnone
  · intro hall
    refine hs.registry.empty ?_
    intro c
    by_contra hne
    obtain ⟨e, he⟩ := Option.ne_none_iff_exists'.mp hne
    obtain ⟨i, x, hx, hserved, -⟩ := hs.served c e he
    rw [hall x (List.mem_of_getElem? hx)] at hserved
    cases hserved

/-- A connection subscribes and goes while the handler of another `sub/` waits for the policy. -/
def lateHandler : List (HubAction Unit) :=
  [.serve ⟨7⟩ none, .on 0 .number, .on 0 .enter, .on 0 (.receive Server.subPrices),
    .on 0 (.handler 0 .poll), .on 0 (.handler 0 (.judge .allow)), .on 0 (.handler 0 .register),
    .on 0 (.receive Server.subPrices), .on 0 (.handler 1 .poll), .on 0 .finish, .on 0 .leave]

/-- The registry is empty then, and the handler that goes on does not register. -/
theorem late_handler_leaves_nothing : ∃ s s', runs (step true 1) (start : Hub Unit) lateHandler = some s ∧
    runs (step true 1) s [.on 0 (.handler 1 (.judge .allow)), .on 0 (.handler 1 .register)] = some s' ∧
      s.registry.state = State.empty ∧ s'.registry.entry ⟨1⟩ = none := by
  have hrun : (runs (step true 1) (start : Hub Unit) lateHandler).map
      (fun s => (s.calls.map fun x => x.phase,
        (runs (step true 1) s [.on 0 (.handler 1 (.judge .allow)),
          .on 0 (.handler 1 .register)]).isSome)) = some ([.left ⟨1⟩], true) := by decide +kernel
  obtain ⟨s, hs, hobs⟩ := Option.map_eq_some_iff.mp hrun
  simp only [Prod.mk.injEq] at hobs
  obtain ⟨s', hs'⟩ := Option.isSome_iff_exists.mp hobs.2
  obtain ⟨x, hcalls, hphase⟩ := List.map_eq_singleton_iff.mp hobs.1
  obtain ⟨-, hleft, hempty, -⟩ := serve_leaves_nothing (Reachable.of_runs hs)
  have hfirst : s.calls[0]? = some x := by rw [hcalls]; rfl
  refine ⟨s, s', hs, hs', ?_, (hleft 0 x ⟨1⟩ hfirst hphase s' (Reachable.of_runs hs')).1⟩
  refine hempty ?_
  intro y hy
  rw [hcalls, List.mem_singleton] at hy
  rw [hy, hphase]
  rfl

end Hub
end Pubsub
end TightbeamExt
