import TightbeamExt.Pubsub.Authorize

/-!
# What the policies covered

The record of a `Server` ties every membership and every publish to the decision on its own
command.  What the record cannot promise is that the connection was still registered when the
policy of a `pub/` was asked: nobody looks it up between `authorized_topic` and the backplane.

## Main definitions

* `Server.Authorized` — a policy allowed this call, for the identity of its connection.
* `Server.Covered` — what the record says, in every run.
* `Server.Guards` — what a step may do to the registry, and to answers.
* `Server.Standing` — the condition on a step: the connection of a `pub/` command that the
  policy allows is registered then.

## Main results

* `authorization_covers_commands` — **memberships and publishes were allowed, each by the
  decision on its own command**, and publishes while the connection was registered in runs of
  steps that meet the condition.
* `dropped_connection_publishes` — a connection that is dropped while its `pub/` command is
  under way publishes.
-/

namespace TightbeamExt
namespace Pubsub

open Transition

namespace Server

/-! ### What the record says -/

/-- The policy allowed the call `i`, this command, for the identity attached to its
connection. -/
def Authorized (s : Server) (i : ℕ) (g : Guarded) (c : ConnectionId) (topic : Topic)
    (d : Decision) : Prop :=
  d ∈ s.decisions ∧ d.call = i ∧ d.command = g ∧ d.connection = c ∧ d.topic = topic ∧
    d.verdict = .allow ∧ s.attached c = some d.identity

/-- What the call `i` in flight rests on. -/
def Rests (s : Server) (i : ℕ) : Call → Prop
  | .asking _ c identity _ _ => s.attached c = some identity
  | .registering c topic => ∃ d, s.Authorized i .sub c topic d
  | .publishing c topic _ => ∃ d, s.Authorized i .pub c topic d
  | .answered _ _ => True

/-- The registration's own call was allowed, and answered `Ok`. -/
def Enrolled (s : Server) (x : AcceptedSubscribe) : Prop :=
  s.calls[x.call]? = some (.answered .sub .ok) ∧
    ∃ d, s.Authorized x.call .sub x.connection x.topic d

/-- The publish's own call was allowed, and answered `Ok`. -/
def Published (s : Server) (p : AcceptedPublish) : Prop :=
  s.calls[p.call]? = some (.answered .pub .ok) ∧
    ∃ d, s.Authorized p.call .pub p.connection p.topic d

/-- The membership is one a registration on record gave. -/
def Granted (s : Server) (c : ConnectionId) (topic : Topic) (id : SubscriberId) : Prop :=
  ∃ x ∈ s.subscriptions, x.connection = c ∧ x.topic = topic ∧ x.subscriber = id

/-- The numbers of the connections. -/
structure Numbered (s : Server) : Prop where
  /-- An allocated number is not in use. -/
  fresh : ∀ x ∈ s.admitting, x.connection.val < s.nextConnection ∧ s.attached x.connection = none
  /-- No number is allocated twice. -/
  distinct : (s.admitting.map Admission.connection).Nodup
  /-- Numbers in use were allocated. -/
  bounded : ∀ c, s.attached c ≠ none → c.val < s.nextConnection
  /-- A registered connection has the identity attached to it. -/
  identity : ∀ c, s.registered c = true → s.attached c = s.registry.memberIdentity c

/-- The policy calls. -/
structure Decided (s : Server) : Prop where
  /-- A call is decided once. -/
  once : (s.decisions.map Decision.call).Nodup
  /-- Decided is what was called. -/
  known : ∀ d ∈ s.decisions, d.call < s.calls.length
  /-- A call that waits for its policy is not decided. -/
  undecided : ∀ i g c identity topic body, s.calls[i]? = some (.asking g c identity topic body) →
    ∀ d ∈ s.decisions, d.call ≠ i

/-- What the record says of the calls. -/
structure Covered (s : Server) : Prop where
  /-- A call is decided once. -/
  decided : Decided s
  /-- What the calls in flight rest on. -/
  calls : ∀ i k, s.calls[i]? = some k → s.Rests i k
  /-- Every membership is from a registration on record. -/
  granted : ∀ c topic id, s.registry.state.Holds c topic id → s.Granted c topic id
  /-- Every registration was allowed, by the decision on its own call. -/
  enrolled : ∀ x ∈ s.subscriptions, s.Enrolled x
  /-- A `pub/` that is answered `Ok` is on record. -/
  accepted : ∀ i : ℕ, s.calls[i]? = some (.answered .pub .ok) → ∃ p ∈ s.publications, p.call = i
  /-- Every publish was allowed, by the decision on its own call. -/
  published : ∀ p ∈ s.publications, s.Published p

/-- The record grows, identities stay attached and answers stay given. -/
structure Extends (s s' : Server) : Prop where
  /-- No decision is forgotten. -/
  decisions : s.decisions ⊆ s'.decisions
  /-- No registration is forgotten. -/
  subscriptions : s.subscriptions ⊆ s'.subscriptions
  /-- Identities stay attached. -/
  attached : ∀ c, s.attached c ≠ none → s'.attached c = s.attached c
  /-- An answered call stays answered. -/
  answered : ∀ (i : ℕ) kind status, s.calls[i]? = some (.answered kind status) →
    s'.calls[i]? = some (.answered kind status)

variable {s s' : Server} {g : Guarded} {c : ConnectionId} {topic : Topic} {d : Decision}

theorem Extends.authorized (h : Extends s s') {i : ℕ} (ha : s.Authorized i g c topic d) :
    s'.Authorized i g c topic d := by
  obtain ⟨hmem, hi, hg, hc, ht, hv, hid⟩ := ha
  refine ⟨h.decisions hmem, hi, hg, hc, ht, hv, ?_⟩
  rw [h.attached c (by rw [hid]; simp)]
  exact hid

theorem Extends.rests (h : Extends s s') {i : ℕ} {k : Call} (hk : s.Rests i k) : s'.Rests i k := by
  cases k with
  | asking g c identity topic body =>
    have hid : s.attached c = some identity := hk
    exact (h.attached c (by rw [hid]; simp)).trans hid
  | registering c topic =>
    obtain ⟨d, hd⟩ := hk
    exact ⟨d, h.authorized hd⟩
  | publishing c topic payload =>
    obtain ⟨d, hd⟩ := hk
    exact ⟨d, h.authorized hd⟩
  | answered k status => trivial

theorem Extends.enrolled (h : Extends s s') {x : AcceptedSubscribe} (hx : s.Enrolled x) :
    s'.Enrolled x := by
  obtain ⟨hcall, d, hd⟩ := hx
  exact ⟨h.answered _ _ _ hcall, d, h.authorized hd⟩

theorem Extends.published (h : Extends s s') {p : AcceptedPublish} (hp : s.Published p) :
    s'.Published p := by
  obtain ⟨hcall, d, hd⟩ := hp
  exact ⟨h.answered _ _ _ hcall, d, h.authorized hd⟩

theorem Extends.granted (h : Extends s s') {id : SubscriberId} (hg : s.Granted c topic id) :
    s'.Granted c topic id := by
  obtain ⟨x, hx, hsame⟩ := hg
  exact ⟨x, h.subscriptions hx, hsame⟩

/-- A call that was not answered moves on. -/
theorem answered_set {i : ℕ} {k k' : Call} (hk : s.calls[i]? = some k)
    (hopen : ∀ kind status, k ≠ .answered kind status) (hcalls : s'.calls = s.calls.set i k')
    (j : ℕ) (kind : CommandKind) (status : TransitStatus)
    (hj : s.calls[j]? = some (.answered kind status)) :
    s'.calls[j]? = some (.answered kind status) := by
  rw [hcalls]
  by_cases hij : i = j
  · subst hij
    rw [hk] at hj
    exact absurd (Option.some.inj hj) (hopen kind status)
  · rw [List.getElem?_set_ne hij]
    exact hj

/-- The calls of a step: old ones, and one that rests on the new state. -/
theorem rests_set (h : ∀ i k, s.calls[i]? = some k → s.Rests i k) (he : Extends s s') {i : ℕ}
    {k : Call} (hcalls : s'.calls = s.calls.set i k) (hk : s'.Rests i k) (j : ℕ) (x : Call)
    (hx : s'.calls[j]? = some x) : s'.Rests j x := by
  rw [hcalls] at hx
  by_cases hij : i = j
  · subst hij
    rw [List.getElem?_set_self'] at hx
    obtain ⟨_, _, rfl⟩ := Option.map_eq_some_iff.mp hx
    exact hk
  · rw [List.getElem?_set_ne hij] at hx
    exact he.rests (h j x hx)

theorem accepted_set (h : ∀ i : ℕ, s.calls[i]? = some (.answered .pub .ok) →
      ∃ p ∈ s.publications, p.call = i) (hpub : s.publications ⊆ s'.publications) {i : ℕ} {k : Call}
    (hcalls : s'.calls = s.calls.set i k)
    (hk : k = .answered .pub .ok → ∃ p ∈ s'.publications, p.call = i) (j : ℕ)
    (hj : s'.calls[j]? = some (.answered .pub .ok)) : ∃ p ∈ s'.publications, p.call = j := by
  rw [hcalls] at hj
  by_cases hij : i = j
  · subst hij
    rw [List.getElem?_set_self'] at hj
    obtain ⟨_, _, hx⟩ := Option.map_eq_some_iff.mp hj
    exact hk hx
  · rw [List.getElem?_set_ne hij] at hj
    obtain ⟨p, hp, hcall⟩ := h j hj
    exact ⟨p, hpub hp, hcall⟩

/-- A call that moves on without its policy. -/
theorem Decided.set (h : Decided s) {i : ℕ} {k : Call} (hdec : s'.decisions = s.decisions)
    (hcalls : s'.calls = s.calls.set i k)
    (hk : ∀ g c identity topic body, k ≠ .asking g c identity topic body) : Decided s' := by
  refine ⟨by rw [hdec]; exact h.once, ?_, ?_⟩
  · rw [hdec, hcalls, List.length_set]
    exact h.known
  · intro j g c identity topic body hj
    rw [hcalls] at hj
    rw [hdec]
    by_cases hij : i = j
    · subst hij
      rw [List.getElem?_set_self'] at hj
      obtain ⟨_, _, hx⟩ := Option.map_eq_some_iff.mp hj
      exact absurd hx (hk g c identity topic body)
    · rw [List.getElem?_set_ne hij] at hj
      exact h.undecided j g c identity topic body hj

/-- A new call is not decided. -/
theorem Decided.append (h : Decided s) {k : Call} (hdec : s'.decisions = s.decisions)
    (hcalls : s'.calls = s.calls ++ [k]) : Decided s' := by
  refine ⟨by rw [hdec]; exact h.once, ?_, ?_⟩
  · intro d hd
    rw [hdec] at hd
    rw [hcalls, List.length_append]
    exact Nat.lt_add_right _ (h.known d hd)
  · intro j g c identity topic body hj d hd
    rw [hdec] at hd
    have hlt := h.known d hd
    rcases Nat.lt_or_ge j s.calls.length with hold | hnew
    · rw [hcalls, List.getElem?_append_left hold] at hj
      exact h.undecided j g c identity topic body hj d hd
    · omega

/-- The policy decides a call that waits for it. -/
theorem Decided.judge (h : Decided s) {i : ℕ} {identity : Option Octets} {body : Option Octets}
    (hi : s.calls[i]? = some (.asking g c identity topic body)) {k : Call}
    (hdec : s'.decisions = s.decisions ++ [d]) (hd : d.call = i)
    (hcalls : s'.calls = s.calls.set i k)
    (hk : ∀ g c identity topic body, k ≠ .asking g c identity topic body) : Decided s' := by
  have hfree := h.undecided i g c identity topic body hi
  refine ⟨?_, ?_, ?_⟩
  · rw [hdec, List.map_append, List.nodup_append]
    refine ⟨h.once, List.nodup_singleton _, ?_⟩
    rintro x hx y hy rfl
    obtain ⟨d', hd', rfl⟩ := List.mem_map.mp hx
    rw [List.map_singleton, List.mem_singleton, hd] at hy
    exact hfree d' hd' hy
  · intro d' hd'
    rw [hcalls, List.length_set]
    rw [hdec, List.mem_append, List.mem_singleton] at hd'
    rcases hd' with hd' | rfl
    · exact h.known d' hd'
    · rw [hd]
      exact (List.getElem?_eq_some_iff.mp hi).1
  · intro j g' c' identity' topic' body' hj d' hd'
    rw [hcalls] at hj
    by_cases hij : i = j
    · subst hij
      rw [List.getElem?_set_self'] at hj
      obtain ⟨_, _, hx⟩ := Option.map_eq_some_iff.mp hj
      exact absurd hx (hk g' c' identity' topic' body')
    · rw [List.getElem?_set_ne hij] at hj
      rw [hdec, List.mem_append, List.mem_singleton] at hd'
      rcases hd' with hd' | rfl
      · exact h.undecided j g' c' identity' topic' body' hj d' hd'
      · rw [hd]
        exact hij

/-! ### The steps -/

theorem registered_congr {s s' : Server}
    (h : ∀ c, s'.registry.memberIdentity c = s.registry.memberIdentity c) (c : ConnectionId) :
    s'.registered c = s.registered c := by
  rw [registered, registered, h]

/-- A step that leaves the connections alone. -/
theorem Numbered.serve {s s' : Server} (h : Numbered s)
    (hnext : s'.nextConnection = s.nextConnection) (hadm : s'.admitting = s.admitting)
    (hatt : s'.attached = s.attached)
    (hid : ∀ c, s'.registry.memberIdentity c = s.registry.memberIdentity c) : Numbered s' := by
  refine ⟨?_, ?_, ?_, ?_⟩
  · rw [hadm, hnext, hatt]
    exact h.fresh
  · rw [hadm]
    exact h.distinct
  · rw [hatt, hnext]
    exact h.bounded
  · intro c hc
    rw [hatt, hid]
    refine h.identity c ?_
    rw [← registered_congr hid c]
    exact hc

/-- A step on the calls: the record grows by what the step's own call gives reason for. -/
theorem Covered.serve {s s' : Server} (h : Covered s) (hext : Extends s s')
    (hdecided : Decided s') (hcalls : ∀ i k, s'.calls[i]? = some k → s'.Rests i k)
    (hholds : ∀ c topic id, s'.registry.state.Holds c topic id →
      s.registry.state.Holds c topic id ∨ s'.Granted c topic id)
    (henrolled : ∀ x ∈ s'.subscriptions, x ∈ s.subscriptions ∨ s'.Enrolled x)
    (haccepted : ∀ i : ℕ, s'.calls[i]? = some (.answered .pub .ok) →
      ∃ p ∈ s'.publications, p.call = i)
    (hpublished : ∀ p ∈ s'.publications, p ∈ s.publications ∨ s'.Published p) : Covered s' := by
  refine ⟨hdecided, hcalls, ?_, ?_, haccepted, ?_⟩
  · intro c topic id hid
    rcases hholds c topic id hid with hold | hnew
    · exact hext.granted (h.granted c topic id hold)
    · exact hnew
  · intro x hx
    rcases henrolled x hx with hold | hnew
    · exact hext.enrolled (h.enrolled x hold)
    · exact hnew
  · intro p hp
    rcases hpublished p hp with hold | hnew
    · exact hext.published (h.published p hold)
    · exact hnew

/-- A step on the connections alone: no membership is new. -/
theorem Covered.connect {s s' : Server} (h : Covered s) (hcalls : s'.calls = s.calls)
    (hdec : s'.decisions = s.decisions) (hreg : s'.subscriptions = s.subscriptions)
    (hpub : s'.publications = s.publications)
    (hatt : ∀ c, s.attached c ≠ none → s'.attached c = s.attached c)
    (hholds : ∀ c topic id, s'.registry.state.Holds c topic id →
      s.registry.state.Holds c topic id) : Covered s' := by
  have hext : Extends s s' := by
    refine ⟨by rw [hdec]; exact List.Subset.refl _, by rw [hreg]; exact List.Subset.refl _, hatt, ?_⟩
    intro i kind status hi
    rw [hcalls]
    exact hi
  have hdecided : Decided s' := by
    refine ⟨by rw [hdec]; exact h.decided.once, ?_, ?_⟩
    · rw [hdec, hcalls]
      exact h.decided.known
    · rw [hdec, hcalls]
      exact h.decided.undecided
  refine h.serve hext hdecided ?_ (fun c topic id hid => Or.inl (hholds c topic id hid)) ?_ ?_ ?_
  · rw [hcalls]
    exact fun i k hk => hext.rests (h.calls i k hk)
  · rw [hreg]
    exact fun x hx => Or.inl hx
  · rw [hcalls, hpub]
    exact h.accepted
  · rw [hpub]
    exact fun p hp => Or.inl hp

theorem rests_ask {s : Server} (h : Numbered s) (i : ℕ) (g : Guarded) (c : ConnectionId)
    (name : Octets) (body : Option Octets) : s.Rests i (s.ask g c name body) := by
  unfold ask
  split
  · trivial
  · split
    · trivial
    · next identity hid =>
      have hc := h.identity c (by simp [registered, hid])
      exact hc.trans hid

theorem Covered.answer {publishes : Bool} {s : Server} (h : Covered s) (hn : Numbered s)
    {c : ConnectionId} {frame : CommandFrame} {k : Call} {r : TopicRegistry}
    (ha : s.accept publishes c frame = some (k, r)) :
    Covered { s with registry := r, calls := s.calls ++ [k] } := by
  have hserves := serves_accept ha
  have hext : Extends s { s with registry := r, calls := s.calls ++ [k] } := by
    refine ⟨List.Subset.refl _, List.Subset.refl _, fun _ _ => rfl, ?_⟩
    intro i kind status hi
    rw [List.getElem?_append_left (List.getElem?_eq_some_iff.mp hi).1]
    exact hi
  have hk : s.Rests s.calls.length k ∧ k ≠ .answered .pub .ok := by
    rcases accept_cases ha with ⟨g, name, rfl, -⟩ | ⟨name, status, rfl, -⟩
    · exact ⟨rests_ask hn _ g c name _, ask_ne_accepted s g c name _⟩
    · exact ⟨trivial, by simp⟩
  -- the new call is the last one
  have hcases : ∀ (i : ℕ) (x : Call), (s.calls ++ [k])[i]? = some x →
      s.calls[i]? = some x ∨ (i = s.calls.length ∧ x = k) := by
    intro i x hx
    rcases Nat.lt_or_ge i s.calls.length with hlt | hge
    · rw [List.getElem?_append_left hlt] at hx
      exact Or.inl hx
    · rw [List.getElem?_append_right hge] at hx
      have hzero : i - s.calls.length = 0 := by
        have hlen := (List.getElem?_eq_some_iff.mp hx).1
        rw [List.length_singleton] at hlen
        omega
      rw [hzero] at hx
      exact Or.inr ⟨by omega, (Option.some.inj hx).symm⟩
  refine h.serve hext (h.decided.append rfl rfl) ?_ ?_ (fun x hx => Or.inl hx) ?_
    fun p hp => Or.inl hp
  · intro i x hx
    rcases hcases i x hx with hold | ⟨rfl, rfl⟩
    · exact hext.rests (h.calls i x hold)
    · exact hext.rests hk.1
  · intro c' t id hid
    rcases hserves.holds c' t id hid with hold | hf
    · exact Or.inl hold
    · exact hf.elim
  · intro i hi
    rcases hcases i _ hi with hold | ⟨-, hlast⟩
    · exact h.accepted i hold
    · exact absurd hlast.symm hk.2

/-- Behind the policy a call is refused, or registers, or publishes its payload. -/
theorem judged_cases (g : Guarded) (c : ConnectionId) (topic : Topic) (body : Option Octets)
    (verdict : AccessVerdict) :
    (∃ kind status, judged g c topic body verdict = .answered kind status ∧ status ≠ .ok) ∨
    (g = .sub ∧ verdict = .allow ∧ judged g c topic body verdict = .registering c topic) ∨
    ∃ payload, g = .pub ∧ verdict = .allow ∧ body = some payload ∧
      judged g c topic body verdict = .publishing c topic payload := by
  cases verdict with
  | forbid => exact .inl ⟨_, _, rfl, by simp⟩
  | allow =>
    cases g with
    | sub => exact .inr (.inl ⟨rfl, rfl, rfl⟩)
    | pub =>
      cases body with
      | none => exact .inl ⟨_, _, rfl, by simp⟩
      | some payload => exact .inr (.inr ⟨payload, rfl, rfl, rfl, rfl⟩)

/-- Behind the policy a call rests on the decision on it. -/
theorem Covered.judge {s : Server} (h : Covered s) {i : ℕ} {g : Guarded} {c : ConnectionId}
    {identity : Option Octets} {topic : Topic} {body : Option Octets}
    (hk : s.calls[i]? = some (.asking g c identity topic body)) (verdict : AccessVerdict) :
    Covered { s with
      calls := s.calls.set i (judged g c topic body verdict)
      decisions := s.decisions ++ [⟨i, g, c, identity, topic, verdict, s.registered c⟩] } := by
  have hid : s.attached c = some identity := h.calls i _ hk
  have hnot : ∀ g' c' identity' topic' body',
      judged g c topic body verdict ≠ .asking g' c' identity' topic' body' := by
    intro g' c' identity' topic' body'
    rcases judged_cases g c topic body verdict with ⟨_, _, h, _⟩ | ⟨_, _, h⟩ | ⟨_, _, _, _, h⟩
    · rw [h]; simp
    · rw [h]; simp
    · rw [h]; simp
  have hext : Extends s { s with
      calls := s.calls.set i (judged g c topic body verdict)
      decisions := s.decisions ++ [⟨i, g, c, identity, topic, verdict, s.registered c⟩] } :=
    ⟨List.subset_append_left _ _, List.Subset.refl _, fun _ _ => rfl,
      answered_set hk (by simp) rfl⟩
  refine h.serve hext (h.decided.judge hk rfl rfl rfl hnot) (rests_set h.calls hext rfl ?_)
    (fun _ _ _ hh => Or.inl hh) (fun x hx => Or.inl hx)
    (accepted_set h.accepted (List.Subset.refl _) rfl ?_) fun p hp => Or.inl hp
  · -- the last decision is the one the call goes on with
    have hlast := List.mem_append_right s.decisions
      (List.mem_singleton_self (⟨i, g, c, identity, topic, verdict, s.registered c⟩ : Decision))
    rcases judged_cases g c topic body verdict with
      ⟨_, _, h, _⟩ | ⟨rfl, rfl, h⟩ | ⟨payload, rfl, rfl, _, h⟩
    · rw [h]
      trivial
    · rw [h]
      exact ⟨_, hlast, rfl, rfl, rfl, rfl, rfl, hid⟩
    · rw [h]
      exact ⟨_, hlast, rfl, rfl, rfl, rfl, rfl, hid⟩
  · intro heq
    rcases judged_cases g c topic body verdict with ⟨_, status, h, hne⟩ | ⟨_, _, h⟩ | ⟨_, _, _, _, h⟩
    · rw [h] at heq
      cases heq
      exact absurd rfl hne
    · rw [h] at heq
      cases heq
    · rw [h] at heq
      cases heq

theorem Covered.enroll {limit : ℕ} {s : Server} (h : Covered s) {i : ℕ} {c : ConnectionId}
    {topic : Topic} (hk : s.calls[i]? = some (.registering c topic)) :
    Covered (s.enroll limit i c topic) := by
  obtain ⟨d, hd⟩ : ∃ d, s.Authorized i .sub c topic d := h.calls i _ hk
  have hlt := (List.getElem?_eq_some_iff.mp hk).1
  have hserves := serves_register limit s.registry c topic
  unfold Server.enroll
  split
  · next id r hr =>
    rw [hr] at hserves
    have hlast := List.mem_append_right s.subscriptions
      (List.mem_singleton_self (⟨i, c, topic, id⟩ : AcceptedSubscribe))
    have hext : Extends s { s with
        registry := r
        calls := s.calls.set i (.answered .sub .ok)
        subscriptions := s.subscriptions ++ [⟨i, c, topic, id⟩] } :=
      ⟨List.Subset.refl _, List.subset_append_left _ _, fun _ _ => rfl,
        answered_set hk (by simp) rfl⟩
    refine h.serve hext (h.decided.set rfl rfl (by simp)) (rests_set h.calls hext rfl trivial) ?_ ?_
      (accepted_set h.accepted (List.Subset.refl _) rfl (by simp)) fun p hp => Or.inl hp
    · intro c' t id' hid
      rcases hserves.holds c' t id' hid with hold | ⟨rfl, rfl, hok, -⟩
      · exact Or.inl hold
      · cases hok
        exact Or.inr ⟨_, hlast, rfl, rfl, rfl⟩
    · intro x hx
      rcases List.mem_append.mp hx with hx | hx
      · exact Or.inl hx
      · rw [List.mem_singleton.mp hx]
        exact Or.inr ⟨List.getElem?_set_self hlt, d, hext.authorized hd⟩
  · next e r hr =>
    obtain rfl := register_error hr
    have hext : Extends s { s with
        registry := s.registry
        calls := s.calls.set i (.answered .sub (PubsubCommands.refusal e)) } :=
      ⟨List.Subset.refl _, List.Subset.refl _, fun _ _ => rfl, answered_set hk (by simp) rfl⟩
    exact h.serve hext (h.decided.set rfl rfl (by simp)) (rests_set h.calls hext rfl trivial)
      (fun _ _ _ hh => Or.inl hh) (fun x hx => Or.inl hx)
      (accepted_set h.accepted (List.Subset.refl _) rfl (by simp)) fun p hp => Or.inl hp

theorem Covered.release {s : Server} (h : Covered s) {i : ℕ} {c : ConnectionId} {topic : Topic}
    {payload : Octets} (hk : s.calls[i]? = some (.publishing c topic payload))
    (answer : Except BackplaneError Unit) : Covered (s.release i c topic answer) := by
  obtain ⟨d, hd⟩ : ∃ d, s.Authorized i .pub c topic d := h.calls i _ hk
  have hlt := (List.getElem?_eq_some_iff.mp hk).1
  have hext : Extends s (s.release i c topic answer) :=
    ⟨List.Subset.refl _, List.Subset.refl _, fun _ _ => rfl, answered_set hk (by simp) rfl⟩
  have hgrow : s.publications ⊆ (s.release i c topic answer).publications := by
    simp only [Server.release]
    split
    · exact List.subset_append_left _ _
    · exact List.Subset.refl _
  refine h.serve hext (h.decided.set rfl rfl (by simp)) (rests_set h.calls hext rfl trivial)
    (fun _ _ _ hh => Or.inl hh) (fun x hx => Or.inl hx) (accepted_set h.accepted hgrow rfl ?_) ?_
  · intro heq
    have hok : PubsubCommands.publishAnswer (s.registry.publish answer) = .ok := by
      simpa using heq
    refine ⟨⟨i, c, topic⟩, ?_, rfl⟩
    simp only [Server.release, hok, if_true]
    exact List.mem_append_right _ (List.mem_singleton_self _)
  · intro p hp
    simp only [Server.release] at hp
    split at hp
    · next hok =>
      rcases List.mem_append.mp hp with hp | hp
      · exact Or.inl hp
      · rw [List.mem_singleton.mp hp]
        refine Or.inr ⟨?_, d, hext.authorized hd⟩
        simp only [Server.release, hok]
        exact List.getElem?_set_self hlt
    · exact Or.inl hp

/-! ### Connections come and go -/

theorem Numbered.allocate {s : Server} (h : Numbered s) (handle : MuxHandle)
    (identity : Option Octets) :
    Numbered { s with
      nextConnection := s.nextConnection + 1
      admitting := s.admitting ++ [⟨⟨s.nextConnection⟩, handle, identity⟩] } := by
  have hfree : s.attached ⟨s.nextConnection⟩ = none := by
    by_contra hne
    exact absurd (h.bounded _ hne) (Nat.lt_irrefl _)
  refine ⟨?_, ?_, ?_, h.identity⟩
  · intro x hx
    rcases List.mem_append.mp hx with hx | hx
    · exact ⟨Nat.lt_succ_of_lt (h.fresh x hx).1, (h.fresh x hx).2⟩
    · rw [List.mem_singleton.mp hx]
      exact ⟨Nat.lt_succ_self _, hfree⟩
  · rw [List.map_append, List.nodup_append]
    refine ⟨h.distinct, List.nodup_singleton _, ?_⟩
    rintro c hc c' hc' rfl
    obtain ⟨x, hx, rfl⟩ := List.mem_map.mp hc
    rw [List.map_singleton, List.mem_singleton] at hc'
    have hlt := (h.fresh x hx).1
    rw [hc'] at hlt
    exact absurd hlt (Nat.lt_irrefl _)
  · intro c hc
    exact Nat.lt_succ_of_lt (h.bounded c hc)

/-- A number that is being admitted is attached to nothing. -/
theorem Numbered.ne_admitted {s : Server} (h : Numbered s) {i : ℕ} {x : Admission}
    (hx : s.admitting[i]? = some x) {c : ConnectionId} (hc : s.attached c ≠ none) :
    c ≠ x.connection := by
  rintro rfl
  exact hc (h.fresh x (List.mem_of_getElem? hx)).2

theorem Numbered.admission {s : Server} (h : Numbered s) {i : ℕ} {x : Admission}
    (hx : s.admitting[i]? = some x) :
    Numbered { s with
      admitting := s.admitting.eraseIdx i
      registry := { s.registry with
        state := s.registry.state.admitConnection x.connection x.handle x.identity }
      attached := Function.update s.attached x.connection (some x.identity) } := by
  obtain ⟨hlt, hfree⟩ := h.fresh x (List.mem_of_getElem? hx)
  refine ⟨?_, ?_, ?_, ?_⟩
  · -- the admissions still pending are for other connections
    intro y hy
    obtain ⟨j, hji, hj⟩ := List.mem_eraseIdx_iff_getElem?.mp hy
    refine ⟨(h.fresh y (List.mem_of_getElem? hj)).1, ?_⟩
    have hid : y.connection ≠ x.connection := by
      intro heq
      have hlen : j < (s.admitting.map Admission.connection).length := by
        rw [List.length_map]
        exact (List.getElem?_eq_some_iff.mp hj).1
      refine hji ((List.getElem?_inj hlen h.distinct).mp ?_)
      rw [List.getElem?_map, List.getElem?_map, hj, hx, Option.map_some, Option.map_some, heq]
    show Function.update s.attached x.connection (some x.identity) y.connection = none
    rw [Function.update_of_ne hid]
    exact (h.fresh y (List.mem_of_getElem? hj)).2
  · exact (List.Sublist.map _ (List.eraseIdx_sublist _ _)).nodup h.distinct
  · intro c hc
    by_cases hcx : c = x.connection
    · rw [hcx]
      exact hlt
    · have hc' : Function.update s.attached x.connection (some x.identity) c ≠ none := hc
      rw [Function.update_of_ne hcx] at hc'
      exact h.bounded c hc'
  · intro c hr
    show Function.update s.attached x.connection (some x.identity) c = _
    rw [memberIdentity_admitConnection]
    by_cases hcx : c = x.connection
    · subst hcx
      rw [if_pos rfl, Function.update_self]
    · rw [if_neg hcx, Function.update_of_ne hcx]
      rw [registered, memberIdentity_admitConnection, if_neg hcx] at hr
      exact h.identity c hr

theorem Numbered.drop {s : Server} (h : Numbered s) (c : ConnectionId) :
    Numbered { s with
      registry := { s.registry with state := (s.registry.state.dropConnection c).2 } } := by
  have hid : ∀ c', TopicRegistry.memberIdentity c'
      { s.registry with state := (s.registry.state.dropConnection c).2 } =
        if c' = c then none else s.registry.memberIdentity c' := by
    intro c'
    simp only [TopicRegistry.memberIdentity, lookup_dropConnection]
    split <;> rfl
  refine ⟨h.fresh, h.distinct, h.bounded, ?_⟩
  intro c' hr
  rw [registered, hid] at hr
  rw [hid]
  split at hr
  · cases hr
  · next hne =>
    rw [if_neg hne]
    exact h.identity c' hr

/-! ### Every run -/

/-- What every run keeps. -/
structure Sound (s : Server) : Prop where
  /-- Of the connections. -/
  numbered : Numbered s
  /-- Of the record. -/
  covered : Covered s

theorem Sound.step {publishes : Bool} {limit : ℕ} {s s' : Server} {a : ServerAction} (h : Sound s)
    (hstep : s.step publishes limit a = some s') : Sound s' := by
  obtain ⟨hn, hc⟩ := h
  cases a with
  | allocate handle identity =>
    cases hstep
    exact ⟨hn.allocate handle identity,
      hc.connect rfl rfl rfl rfl (fun _ _ => rfl) fun _ _ _ hid => hid⟩
  | admission i =>
    simp only [Server.step] at hstep
    split at hstep
    · cases hstep
    · next x hx =>
      cases hstep
      refine ⟨hn.admission hx, hc.connect rfl rfl rfl rfl ?_ fun _ _ _ => holds_admitConnection⟩
      intro c hatt
      exact Function.update_of_ne (hn.ne_admitted hx hatt) _ _
  | drop c =>
    cases hstep
    exact ⟨hn.drop c, hc.connect rfl rfl rfl rfl (fun _ _ => rfl) fun _ _ _ => holds_dropConnection⟩
  | quiesce =>
    cases hstep
    exact ⟨hn.serve rfl rfl rfl fun _ => rfl,
      hc.connect rfl rfl rfl rfl (fun _ _ => rfl) fun _ _ _ hid => hid⟩
  | answer c frame =>
    simp only [Server.step] at hstep
    split at hstep
    · cases hstep; exact ⟨hn, hc⟩
    · next k r ha =>
      cases hstep
      exact ⟨hn.serve rfl rfl rfl (serves_accept ha).identity, hc.answer hn ha⟩
  | judge i verdict =>
    simp only [Server.step] at hstep
    split at hstep
    · next g c identity topic body hk =>
      cases hstep
      exact ⟨hn.serve rfl rfl rfl fun _ => rfl, hc.judge hk verdict⟩
    · cases hstep
  | register i =>
    simp only [Server.step] at hstep
    split at hstep
    · next c topic hk =>
      cases hstep
      have hserves := (serves_register limit s.registry c topic).identity
      refine ⟨?_, hc.enroll hk⟩
      unfold enroll
      split
      · next id r hr => rw [hr] at hserves; exact hn.serve rfl rfl rfl hserves
      · next e r hr => rw [hr] at hserves; exact hn.serve rfl rfl rfl hserves
    · cases hstep
  | publish i answer =>
    simp only [Server.step] at hstep
    split at hstep
    · next c topic payload hk =>
      cases hstep
      exact ⟨hn.serve rfl rfl rfl fun _ => rfl, hc.release hk answer⟩
    · cases hstep

theorem sound_start : Sound start where
  numbered :=
    { fresh := by intro x hx; cases hx
      distinct := List.nodup_nil
      bounded := by intro c hc; exact absurd rfl hc
      identity := by
        intro c hc
        simp [start, registered, TopicRegistry.memberIdentity, State.empty] at hc }
  covered :=
    { decided :=
        { once := List.nodup_nil
          known := by intro d hd; cases hd
          undecided := by intro i g c identity topic body hi; cases hi }
      calls := by intro i k hk; cases hk
      granted := by
        rintro c topic id ⟨k, hk, -⟩
        simp [start, State.empty] at hk
      enrolled := by intro x hx; cases hx
      accepted := by intro i hi; cases hi
      published := by intro p hp; cases hp }

theorem sound_of_reachable {publishes : Bool} {limit : ℕ} {s : Server}
    (h : Reachable (step publishes limit) start s) : Sound s :=
  Reaches.invariant (I := Sound) sound_start (fun _ _ _ _ hs _ hst => hs.step hst) h

/-! ### Memberships and refusals -/

/-- The `sub/` call a section serves. -/
def servesSub (s : Server) : ServerAction → Option ℕ
  | .answer _ frame =>
      if (PubsubCommands.stripFront (utf8 subPrefix) frame.id).isSome then some s.calls.length
      else none
  | .judge i _ =>
      match s.calls[i]? with
      | some (.asking .sub _ _ _ _) => some i
      | _ => none
  | .register i =>
      match s.calls[i]? with
      | some (.registering _ _) => some i
      | _ => none
  | _ => none

/-- Only a registered connection gets a new membership. -/
theorem registered_of_new {publishes : Bool} {limit : ℕ} {s s' : Server} {a : ServerAction}
    (hstep : s.step publishes limit a = some s') {c : ConnectionId} {topic : Topic}
    (h : s'.registry.Registered c topic) :
    s.registry.Registered c topic ∨ s.registered c = true := by
  cases a with
  | allocate handle identity => cases hstep; exact Or.inl h
  | admission i =>
    simp only [Server.step] at hstep
    split at hstep
    · cases hstep
    · cases hstep
      obtain ⟨id, hid⟩ := h
      exact Or.inl ⟨id, holds_admitConnection hid⟩
  | drop c' =>
    cases hstep
    obtain ⟨id, hid⟩ := h
    exact Or.inl ⟨id, holds_dropConnection hid⟩
  | quiesce => cases hstep; exact Or.inl h
  | answer c' frame =>
    simp only [Server.step] at hstep
    split at hstep
    · cases hstep; exact Or.inl h
    · next k r ha =>
      cases hstep
      obtain ⟨id, hid⟩ := h
      rcases (serves_accept ha).holds c topic id hid with hold | hf
      · exact Or.inl ⟨id, hold⟩
      · exact hf.elim
  | judge i verdict =>
    simp only [Server.step] at hstep
    split at hstep
    · cases hstep; exact Or.inl h
    · cases hstep
  | register i =>
    simp only [Server.step] at hstep
    split at hstep
    · next c' t hk =>
      cases hstep
      obtain ⟨id, hid⟩ : (s.registry.register limit c' t).2.Registered c topic := by
        unfold enroll at h
        split at h
        · next id r hr => rw [hr]; exact h
        · next e r hr => rw [hr]; exact h
      rcases (serves_register _ _ c' t).holds c topic id hid with hold | ⟨rfl, -, -, hm⟩
      · exact Or.inl ⟨id, hold⟩
      · exact Or.inr hm
    · cases hstep
  | publish i answer =>
    simp only [Server.step] at hstep
    split at hstep
    · cases hstep; exact Or.inl h
    · cases hstep

/-- A `sub/` call that is not answered `Ok` leaves the registry as it is. -/
theorem registry_of_refused {publishes : Bool} {limit : ℕ} {s s' : Server} {a : ServerAction}
    (hstep : s.step publishes limit a = some s') {i : ℕ} (ha : s.servesSub a = some i)
    (hnot : s'.calls[i]? ≠ some (.answered .sub .ok)) : s'.registry = s.registry := by
  cases a with
  | answer c frame =>
    simp only [servesSub] at ha
    split at ha
    · next hsub =>
      obtain ⟨name, hname⟩ := Option.isSome_iff_exists.mp hsub
      simp only [Server.step, accept, hname] at hstep
      cases hstep
      rfl
    · cases ha
  | judge j verdict =>
    simp only [Server.step] at hstep
    split at hstep
    · cases hstep; rfl
    · cases hstep
  | register j =>
    simp only [Server.step] at hstep
    simp only [servesSub] at ha
    split at hstep
    · next c t hk =>
      rw [hk] at ha
      simp only [Option.some.injEq] at ha
      subst ha
      cases hstep
      unfold enroll at hnot ⊢
      split
      · next id r hr =>
        exfalso
        obtain ⟨hlt, _⟩ := List.getElem?_eq_some_iff.mp hk
        rw [hr] at hnot
        exact hnot (List.getElem?_set_self hlt)
      · next e r hr => exact register_error hr
    · cases hstep
  | allocate handle identity => cases ha
  | admission j => cases ha
  | drop c => cases ha
  | quiesce => cases ha
  | publish j answer => cases ha

/-- A frame of a connection that is not registered is refused at once. -/
theorem refused_of_unregistered {publishes : Bool} {limit : ℕ} {s s' : Server} {c : ConnectionId}
    {frame : CommandFrame} (hstep : s.step publishes limit (.answer c frame) = some s')
    (hc : s.registered c = false) :
    s'.registry = s.registry ∧ ∀ (i : ℕ) k, s.calls.length ≤ i → s'.calls[i]? = some k →
      ∃ kind status, k = .answered kind status ∧ (kind ≠ .unsub → status ≠ .ok) := by
  have hnone : s.registry.memberIdentity c = none := by simpa [registered] using hc
  -- without an identity `authorized_topic` refuses
  have hask : ∀ (g : Guarded) name, ∃ status, s.ask g c name frame.body = .answered g.kind status ∧
      status ≠ .ok := by
    intro g name
    unfold ask
    split
    · exact ⟨_, rfl, by simp⟩
    · rw [hnone]
      exact ⟨_, rfl, by simp⟩
  have hlookup : s.registry.state.connections.lookup c = none := by
    simpa [TopicRegistry.memberIdentity] using hnone
  simp only [Server.step] at hstep
  split at hstep
  · cases hstep
    refine ⟨rfl, fun i k hi hk => ?_⟩
    rw [List.getElem?_eq_none hi] at hk
    cases hk
  · next k r ha =>
    cases hstep
    have hnew : r = s.registry ∧ ∃ kind status, k = .answered kind status ∧
        (kind ≠ .unsub → status ≠ .ok) := by
      rcases accept_cases ha with ⟨g, name, rfl, rfl⟩ | ⟨name, status, rfl, rfl⟩
      · obtain ⟨status, hstatus, hne⟩ := hask g name
        exact ⟨rfl, g.kind, status, hstatus, fun _ => hne⟩
      · refine ⟨?_, .unsub, status, rfl, fun hne => absurd rfl hne⟩
        unfold PubsubCommands.unsubscribe
        split
        · rfl
        · simp [TopicRegistry.unregister, State.unregister, hlookup]
    refine ⟨hnew.1, fun i x hi hx => ?_⟩
    rw [List.getElem?_append_right hi] at hx
    rw [List.mem_singleton.mp (List.mem_of_getElem? hx)]
    exact hnew.2

/-- An answered call stays answered. -/
theorem answered_step {publishes : Bool} {limit : ℕ} {s s' : Server} {a : ServerAction}
    (hstep : s.step publishes limit a = some s') {i : ℕ} {kind : CommandKind} {status : TransitStatus}
    (hi : s.calls[i]? = some (.answered kind status)) :
    s'.calls[i]? = some (.answered kind status) := by
  cases a with
  | allocate handle identity => cases hstep; exact hi
  | admission j =>
    simp only [Server.step] at hstep
    split at hstep
    · cases hstep
    · cases hstep; exact hi
  | drop c => cases hstep; exact hi
  | quiesce => cases hstep; exact hi
  | answer c frame =>
    simp only [Server.step] at hstep
    split at hstep
    · cases hstep; exact hi
    · cases hstep
      exact (List.getElem?_append_left (List.getElem?_eq_some_iff.mp hi).1).trans hi
  | judge j verdict =>
    simp only [Server.step] at hstep
    split at hstep
    · next hk => cases hstep; exact answered_set hk (by simp) rfl i kind status hi
    · cases hstep
  | register j =>
    simp only [Server.step] at hstep
    split at hstep
    · next hk =>
      cases hstep
      unfold enroll
      split
      · exact answered_set hk (by simp) rfl i kind status hi
      · exact answered_set hk (by simp) rfl i kind status hi
    · cases hstep
  | publish j answer =>
    simp only [Server.step] at hstep
    split at hstep
    · next hk => cases hstep; exact answered_set hk (by simp) rfl i kind status hi
    · cases hstep

/-- What a step may do to the registry, and to answers. -/
structure Guards (publishes : Bool) (limit : ℕ) (s : Server) (a : ServerAction) (s' : Server) :
    Prop where
  /-- Only a registered connection gets a new membership. -/
  members : ∀ c topic, s'.registry.Registered c topic →
    s.registry.Registered c topic ∨ s.registered c = true
  /-- A section of a `sub/` that does not end in `Ok` leaves the registry as it is. -/
  refusals : ∀ i, s.servesSub a = some i → s'.calls[i]? ≠ some (.answered .sub .ok) →
    s'.registry = s.registry
  /-- A frame of a connection that was dropped or never admitted changes nothing, and its
  `sub/` or `pub/` is refused at once. -/
  strangers : ∀ c frame, a = .answer c frame → s.registered c = false →
    s'.registry = s.registry ∧ ∀ (i : ℕ) k, s.calls.length ≤ i → s'.calls[i]? = some k →
      ∃ kind status, k = .answered kind status ∧ (kind ≠ .unsub → status ≠ .ok)
  /-- An answered call stays answered. -/
  final : ∀ (i : ℕ) kind status, s.calls[i]? = some (.answered kind status) →
    s'.calls[i]? = some (.answered kind status)

theorem guards_step {publishes : Bool} {limit : ℕ} {s s' : Server} {a : ServerAction}
    (hstep : s.step publishes limit a = some s') : Guards publishes limit s a s' where
  members := fun _ _ => registered_of_new hstep
  refusals := fun _ => registry_of_refused hstep
  strangers := by
    rintro c frame rfl hc
    exact refused_of_unregistered hstep hc
  final := fun _ _ _ => answered_step hstep

/-! ### Publishes -/

/-- The connection of the `pub/` command whose policy answers. -/
def publisher (s : Server) (i : ℕ) : Option ConnectionId :=
  match s.calls[i]? with
  | some (.asking .pub c _ _ (some _)) => some c
  | _ => none

/-- The condition on a step: a `pub/` command is allowed while its connection is registered. -/
def Standing (s : Server) : ServerAction → Prop
  | .judge i .allow => ∀ c ∈ s.publisher i, s.registered c = true
  | _ => True

instance (s : Server) (a : ServerAction) : Decidable (s.Standing a) :=
  match a with
  | .judge i .allow => inferInstanceAs (Decidable (∀ c ∈ s.publisher i, s.registered c = true))
  | .judge _ .forbid | .allocate _ _ | .admission _ | .drop _ | .quiesce | .answer _ _
  | .register _ | .publish _ _ => isTrue trivial

/-- Every publish was allowed while its connection was registered. -/
def AllStanding (s : Server) : Prop :=
  ∀ p ∈ s.publications, ∃ d, s.Authorized p.call .pub p.connection p.topic d ∧ d.standing = true

/-- The same of a call that is about to publish. -/
def Upright (s : Server) : Prop :=
  ∀ i c topic payload, s.calls[i]? = some (.publishing c topic payload) →
    ∃ d, s.Authorized i .pub c topic d ∧ d.standing = true

/-- An allowed call keeps its decision. -/
theorem standing_mono {s s' : Server} (hdec : s.decisions ⊆ s'.decisions)
    (hatt : ∀ c, s.attached c ≠ none → s'.attached c = s.attached c) {i : ℕ} {c : ConnectionId}
    {topic : Topic} (h : ∃ d, s.Authorized i .pub c topic d ∧ d.standing = true) :
    ∃ d, s'.Authorized i .pub c topic d ∧ d.standing = true := by
  obtain ⟨d, ⟨hmem, hi, hg, hc, ht, hv, hid⟩, hst⟩ := h
  refine ⟨d, ⟨hdec hmem, hi, hg, hc, ht, hv, ?_⟩, hst⟩
  rw [hatt c (by rw [hid]; simp)]
  exact hid

/-- What a run of steps that meet the condition keeps. -/
structure Watched (s : Server) : Prop where
  /-- Of the publishes on record. -/
  published : s.AllStanding
  /-- Of those to come. -/
  publishing : s.Upright

/-- A step that publishes nothing and moves no call on to a publish. -/
theorem Watched.mono {s s' : Server} (h : Watched s) (hpub : s'.publications = s.publications)
    (hdec : s.decisions ⊆ s'.decisions)
    (hatt : ∀ c, s.attached c ≠ none → s'.attached c = s.attached c)
    (hcalls : ∀ (i : ℕ) c topic payload, s'.calls[i]? = some (.publishing c topic payload) →
      s.calls[i]? = some (.publishing c topic payload)) : Watched s' := by
  refine ⟨?_, ?_⟩
  · intro p hp
    rw [hpub] at hp
    exact standing_mono hdec hatt (h.published p hp)
  · intro i c topic payload hi
    exact standing_mono hdec hatt (h.publishing i c topic payload (hcalls i c topic payload hi))

/-- A call that moves on to something else than a publish. -/
theorem publishing_set {s s' : Server} {i : ℕ} {k : Call} (hcalls : s'.calls = s.calls.set i k)
    (hk : ∀ c topic payload, k ≠ .publishing c topic payload) (j : ℕ) (c : ConnectionId)
    (topic : Topic) (payload : Octets) (hj : s'.calls[j]? = some (.publishing c topic payload)) :
    s.calls[j]? = some (.publishing c topic payload) := by
  rw [hcalls] at hj
  by_cases hij : i = j
  · subst hij
    rw [List.getElem?_set_self'] at hj
    obtain ⟨_, _, hx⟩ := Option.map_eq_some_iff.mp hj
    exact absurd hx (hk c topic payload)
  · rwa [List.getElem?_set_ne hij] at hj

theorem Watched.judge {s : Server} (h : Watched s) (hn : Covered s) {i : ℕ} {g : Guarded}
    {c : ConnectionId} {identity : Option Octets} {topic : Topic} {body : Option Octets}
    (hk : s.calls[i]? = some (.asking g c identity topic body)) {verdict : AccessVerdict}
    (hst : s.Standing (.judge i verdict)) :
    Watched { s with
      calls := s.calls.set i (judged g c topic body verdict)
      decisions := s.decisions ++ [⟨i, g, c, identity, topic, verdict, s.registered c⟩] } := by
  have hid : s.attached c = some identity := hn.calls i _ hk
  have hgrow := List.subset_append_left s.decisions
    [⟨i, g, c, identity, topic, verdict, s.registered c⟩]
  rcases judged_cases g c topic body verdict with
    ⟨_, _, hjudged, _⟩ | ⟨_, _, hjudged⟩ | ⟨payload, rfl, rfl, rfl, hjudged⟩
  · exact h.mono rfl hgrow (fun _ _ => rfl) (publishing_set rfl (by simp [hjudged]))
  · exact h.mono rfl hgrow (fun _ _ => rfl) (publishing_set rfl (by simp [hjudged]))
  · -- the condition speaks of this call
    have hreg : s.registered c = true := hst c (by simp [publisher, hk])
    refine ⟨?_, ?_⟩
    · intro p hp
      refine standing_mono (s := s) ?_ ?_ (h.published p hp)
      · exact hgrow
      · exact fun _ _ => rfl
    · intro j c' t payload' hj
      by_cases hij : i = j
      · subst hij
        rw [List.getElem?_set_self'] at hj
        obtain ⟨_, _, hx⟩ := Option.map_eq_some_iff.mp hj
        rw [hjudged] at hx
        cases hx
        exact ⟨_, ⟨List.mem_append_right _ (List.mem_singleton_self _), rfl, rfl, rfl, rfl, rfl,
          hid⟩, hreg⟩
      · rw [List.getElem?_set_ne hij] at hj
        refine standing_mono (s := s) ?_ ?_ (h.publishing j c' t payload' hj)
        · exact hgrow
        · exact fun _ _ => rfl

theorem Watched.step {publishes : Bool} {limit : ℕ} {s s' : Server} {a : ServerAction}
    (h : Watched s) (hn : Sound s) (hst : s.Standing a)
    (hstep : s.step publishes limit a = some s') : Watched s' := by
  cases a with
  | allocate handle identity =>
    cases hstep
    exact h.mono rfl (List.Subset.refl _) (fun _ _ => rfl) fun _ _ _ _ hi => hi
  | admission i =>
    simp only [Server.step] at hstep
    split at hstep
    · cases hstep
    · next x hx =>
      cases hstep
      refine h.mono rfl (List.Subset.refl _) ?_ fun _ _ _ _ hi => hi
      intro c hc
      exact Function.update_of_ne (hn.numbered.ne_admitted hx hc) _ _
  | drop c =>
    cases hstep
    exact h.mono rfl (List.Subset.refl _) (fun _ _ => rfl) fun _ _ _ _ hi => hi
  | quiesce =>
    cases hstep
    exact h.mono rfl (List.Subset.refl _) (fun _ _ => rfl) fun _ _ _ _ hi => hi
  | answer c frame =>
    simp only [Server.step] at hstep
    split at hstep
    · cases hstep; exact h
    · next k r ha =>
      cases hstep
      refine h.mono rfl (List.Subset.refl _) (fun _ _ => rfl) ?_
      intro i c' topic payload hi
      rcases Nat.lt_or_ge i s.calls.length with hlt | hge
      · rw [List.getElem?_append_left hlt] at hi
        exact hi
      · -- a new call asks, or is answered
        rw [List.getElem?_append_right hge] at hi
        have hlast := List.mem_singleton.mp (List.mem_of_getElem? hi)
        rcases accept_cases ha with ⟨g, name, rfl, -⟩ | ⟨name, status, rfl, -⟩
        · unfold ask at hlast
          split at hlast
          · cases hlast
          · split at hlast <;> cases hlast
        · cases hlast
  | judge i verdict =>
    simp only [Server.step] at hstep
    split at hstep
    · next g c identity topic body hk =>
      cases hstep
      exact h.judge hn.covered hk hst
    · cases hstep
  | register i =>
    simp only [Server.step] at hstep
    split at hstep
    · cases hstep
      unfold enroll
      split
      · exact h.mono rfl (List.Subset.refl _) (fun _ _ => rfl) (publishing_set rfl (by simp))
      · exact h.mono rfl (List.Subset.refl _) (fun _ _ => rfl) (publishing_set rfl (by simp))
    · cases hstep
  | publish i answer =>
    simp only [Server.step] at hstep
    split at hstep
    · next c topic payload hk =>
      cases hstep
      refine ⟨?_, ?_⟩
      · intro p hp
        simp only [release] at hp
        split at hp
        · rcases List.mem_append.mp hp with hp | hp
          · exact h.published p hp
          · rw [List.mem_singleton.mp hp]
            exact h.publishing i c topic payload hk
        · exact h.published p hp
      · intro j c' t payload' hj
        exact h.publishing j c' t payload' (publishing_set rfl (by simp) j c' t payload' hj)
    · cases hstep

/-- **The condition is needed.**  Once a `pub/` command is allowed with its connection gone, the
publish that the backplane accepts is not covered. -/
theorem not_allStanding_of_dropped {publishes : Bool} {limit : ℕ} {s s' s'' : Server} {i : ℕ}
    {c : ConnectionId} {identity : Option Octets} {topic : Topic} {payload : Octets} (h : Sound s)
    (hi : s.calls[i]? = some (.asking .pub c identity topic (some payload)))
    (hc : s.registered c = false) (hdraining : s.registry.draining = false)
    (hjudge : s.step publishes limit (.judge i .allow) = some s')
    (hpublish : s'.step publishes limit (.publish i (.ok ())) = some s'') : ¬ s''.AllStanding := by
  have hlt := (List.getElem?_eq_some_iff.mp hi).1
  simp only [Server.step, hi] at hjudge
  cases hjudge
  have hcall : (s.calls.set i (judged .pub c topic (some payload) .allow))[i]? =
      some (.publishing c topic payload) := List.getElem?_set_self hlt
  simp only [Server.step, hcall] at hpublish
  cases hpublish
  intro hall
  obtain ⟨d, ⟨hmem, hdi, -⟩, hstanding⟩ := hall ⟨i, c, topic⟩ (by
    simp [release, TopicRegistry.publish, hdraining, PubsubCommands.publishAnswer])
  -- the call was decided once, without its connection
  rcases List.mem_append.mp hmem with hold | hlast
  · exact h.covered.decided.undecided i _ _ _ _ _ hi d hold hdi
  · rw [List.mem_singleton.mp hlast, hc] at hstanding
    cases hstanding

/-- **Authorization covers memberships and publishes.**  In every run a policy decides a call
once; every membership is from a `sub/` on record, and every `sub/` on record and every accepted
`pub/` was allowed by the decision on its own call, about the identity attached to its connection;
only a registered connection gets a new membership, a frame of another one is refused, and a
`sub/` that is not answered `Ok` changes nothing.  In every run in which `pub/` commands are
allowed only while their connection is registered, every accepted `pub/` has its Allow from such
a time.  And a `pub/` that is allowed otherwise breaks that once the backplane accepts it. -/
theorem authorization_covers_commands (publishes : Bool) (limit : ℕ) :
    (∀ s, Reachable (step publishes limit) start s → Covered s ∧
      (∀ c, s.registered c = true → s.attached c = s.registry.memberIdentity c) ∧
      ∀ a s', s.step publishes limit a = some s' → Guards publishes limit s a s') ∧
    (∀ s, Reaches (step publishes limit) Standing start s → s.AllStanding) ∧
    ∀ (s s' s'' : Server) (i : ℕ) c identity topic payload,
      Reachable (step publishes limit) start s →
      s.calls[i]? = some (.asking .pub c identity topic (some payload)) →
      s.registered c = false → s.registry.draining = false →
      s.step publishes limit (.judge i .allow) = some s' →
      s'.step publishes limit (.publish i (.ok ())) = some s'' → ¬ s''.AllStanding := by
  refine ⟨?_, ?_, ?_⟩
  · intro s hs
    obtain ⟨hnumbered, hcovered⟩ := sound_of_reachable hs
    exact ⟨hcovered, hnumbered.identity, fun a s' hstep => guards_step hstep⟩
  · intro s hs
    have hwatched : Watched s := Reaches.invariant (I := Watched)
      { published := by intro p hp; cases hp
        publishing := by intro i c topic payload hi; cases hi }
      (fun _ _ _ hr h hg hst => h.step (sound_of_reachable hr.reachable) hg hst) hs
    exact hwatched.published
  · intro s s' s'' i c identity topic payload hs hi hc hd hjudge hpublish
    exact not_allStanding_of_dropped (sound_of_reachable hs) hi hc hd hjudge hpublish

/-- A connection that subscribes and publishes, each allowed by its policy; its second `sub/` is
forbidden. -/
theorem allowed_connection_publishes :
    ∃ s, Reaches (step true 1) Standing start s ∧ s.registry.Registered ⟨1⟩ Topic.prices ∧
      (∃ x ∈ s.subscriptions, x.call = 0 ∧ ∃ d, s.Authorized 0 .sub ⟨1⟩ Topic.prices d) ∧
      s.publications = [⟨1, ⟨1⟩, Topic.prices⟩] ∧
      ∃ d, s.Authorized 1 .pub ⟨1⟩ Topic.prices d ∧ d.standing = true := by
  have hrun : (runs (restrict (step true 1) Standing) start
      [.allocate ⟨0⟩ none, .admission 0, .answer ⟨1⟩ subPrices, .judge 0 .allow, .register 0,
        .answer ⟨1⟩ pubPrices, .answer ⟨1⟩ subPrices, .judge 2 .forbid, .judge 1 .allow,
        .publish 1 (.ok ())]).map
        (fun s => (s.subscriptions, s.publications,
          decide (s.registry.Registered ⟨1⟩ Topic.prices))) =
      some ([⟨0, ⟨1⟩, Topic.prices, ⟨1⟩⟩], [⟨1, ⟨1⟩, Topic.prices⟩], true) := by decide +kernel
  obtain ⟨s, hs, hobs⟩ := Option.map_eq_some_iff.mp hrun
  simp only [Prod.mk.injEq, decide_eq_true_eq] at hobs
  obtain ⟨hsubs, hpublications, hregistered⟩ := hobs
  have hreach := Reaches.of_runs _ .start hs
  obtain ⟨hcovers, hstanding, -⟩ := authorization_covers_commands true 1
  have hx : (⟨0, ⟨1⟩, Topic.prices, ⟨1⟩⟩ : AcceptedSubscribe) ∈ s.subscriptions := by
    rw [hsubs]
    exact List.mem_singleton_self _
  have hp : (⟨1, ⟨1⟩, Topic.prices⟩ : AcceptedPublish) ∈ s.publications := by
    rw [hpublications]
    exact List.mem_singleton_self _
  exact ⟨s, hreach, hregistered,
    ⟨_, hx, rfl, ((hcovers s hreach.reachable).1.enrolled _ hx).2⟩, hpublications,
    hstanding s hreach _ hp⟩

/-- A connection that is dropped while its `pub/` command is under way: the policy is asked
and the update published although the connection is gone. -/
theorem dropped_connection_publishes :
    ∃ s, Reachable (step true 1) start s ∧ s.calls[0]? = some (.answered .pub .ok) ∧
      s.publications = [⟨0, ⟨1⟩, Topic.prices⟩] ∧
      s.decisions = [⟨0, .pub, ⟨1⟩, none, Topic.prices, .allow, false⟩] ∧
      s.registered ⟨1⟩ = false ∧ ¬ s.AllStanding := by
  have hrun : (runs (step true 1) start
      [.allocate ⟨0⟩ none, .admission 0, .answer ⟨1⟩ pubPrices, .drop ⟨1⟩, .judge 0 .allow,
        .publish 0 (.ok ())]).map
        (fun s => (s.calls[0]?, s.publications, s.decisions, s.registered ⟨1⟩)) =
      some (some (.answered .pub .ok), [⟨0, ⟨1⟩, Topic.prices⟩],
        [⟨0, .pub, ⟨1⟩, none, Topic.prices, .allow, false⟩], false) := by decide +kernel
  obtain ⟨s, hs, hobs⟩ := Option.map_eq_some_iff.mp hrun
  simp only [Prod.mk.injEq] at hobs
  obtain ⟨hcall, hpub, hdec, hreg⟩ := hobs
  refine ⟨s, Reachable.of_runs hs, hcall, hpub, hdec, hreg, ?_⟩
  intro hall
  obtain ⟨d, ⟨hmem, -⟩, hst⟩ := hall ⟨0, ⟨1⟩, Topic.prices⟩ (by rw [hpub]; exact List.mem_singleton_self _)
  rw [hdec, List.mem_singleton] at hmem
  rw [hmem] at hst
  cases hst

end Server
end Pubsub
end TightbeamExt
