import TightbeamExt.Client.Manager

/-!
# What a live handle stands for

A handle reports `live` while its entry is mapped and the entry's state says so.  The
state is set by the code behind an acknowledged `sub/` command, which does not ask
which client acknowledged, and it is reset only behind the `install` of a reattach,
which may throw once the new client is in place.

## Main definitions

* `SubscriptionManager.LiveAcked` — a handle that reports `live` has a command
  acknowledged by the client in place.
* `SubscriptionManager.Current` — the condition on a call: whose acknowledgment it sees, and
  which client it attaches.
* `SubscriptionManager.Backed` — what one step needs.

## Main results

* `liveAcked_step` — a step keeps the law exactly when it is backed.
* `live_means_acknowledged` — **live handles and acknowledgments** in runs of current
  steps.
* `live_on_a_closed_client` — a reattach to a closed client leaves a handle live.
-/

namespace TightbeamExt
namespace Client

open Transition Pubsub

namespace SubscriptionManager

/-- A handle that reports `live` has a `sub/` command for its entry that was emitted
on and acknowledged by the client in place. -/
def LiveAcked (m : SubscriptionManager) : Prop :=
  ∀ t e, m.handleState t e = .live → (e, m.client) ∈ m.acked

/-- The acknowledgment a `subscribe` or a replay is about to see. -/
def acknowledgedCall : Task → Option Refusal
  | .subscribe t e (.settled c .acknowledged) => some ⟨t, e, c⟩
  | .replay _ t e (.settled c .acknowledged) => some ⟨t, e, c⟩
  | _ => none

/-- `install` on this client throws. -/
def installThrows (m : SubscriptionManager) (c : ClientId) : Bool :=
  match (m.peers c).serve .unary true with
  | .error _ => true
  | .ok _ => false

/-- The condition on a call.  A `subscribe` or a replay whose command was acknowledged goes
on, its entry still mapped, only while the client that acknowledged is in place; and a
reattach that throws either names the client in place or finds no mapped entry live. -/
def Current (m : SubscriptionManager) : Action → Prop
  | .resume i =>
      ∀ k ∈ m.tasks[i]?, ∀ r ∈ acknowledgedCall k, m.entries.lookup r.topic = some r.entry →
        r.on = m.client
  | .reattach c =>
      m.installThrows c = true → c = m.client ∨ ∀ x ∈ m.mapped, (m.heap x.2).state ≠ .live
  | _ => True

instance (m : SubscriptionManager) (a : Action) : Decidable (m.Current a) :=
  match a with
  | .resume i =>
      inferInstanceAs (Decidable (∀ k ∈ m.tasks[i]?, ∀ r ∈ acknowledgedCall k,
        m.entries.lookup r.topic = some r.entry → r.on = m.client))
  | .reattach c =>
      inferInstanceAs (Decidable (m.installThrows c = true →
        c = m.client ∨ ∀ x ∈ m.mapped, (m.heap x.2).state ≠ .live))
  | .subscribe _ _ | .unsubscribe _ | .close _ | .serve _ _ _ | .complete _ _ | .update _ _ _
  | .emit _ | .settle _ _ | .endRefused _ | .observed _ | .decoded _ _ | .handled _ _ =>
      isTrue trivial

/-- What one step needs: the client in place once it is through has acknowledged the entry
that goes live, or the entries that stay live. -/
def Backed (m : SubscriptionManager) : Action → Prop
  | .resume i =>
      ∀ k ∈ m.tasks[i]?, ∀ r ∈ acknowledgedCall k, m.entries.lookup r.topic = some r.entry →
        r.on = m.client ∨ (r.entry, m.client) ∈ m.acked
  | .reattach c =>
      m.installThrows c = true → ∀ x ∈ m.mapped, (m.heap x.2).state = .live → (x.2, c) ∈ m.acked
  | _ => True

theorem handleState_eq_live {m : SubscriptionManager} {t : TopicName} {e : EntryId} :
    m.handleState t e = .live ↔ m.entries.lookup t = some e ∧ (m.heap e).state = .live := by
  unfold handleState
  split
  · next h => simp [h]
  · next h => simp [h]

/-! ### Steps that set nothing live -/

/-- The client stays, nothing new is mapped or set live, no acknowledgment is
forgotten. -/
structure Fades (m m' : SubscriptionManager) : Prop where
  /-- The client in place. -/
  client : m'.client = m.client
  /-- Mapped and live is only what was. -/
  live : ∀ t e, m'.entries.lookup t = some e → (m'.heap e).state = .live →
    m.entries.lookup t = some e ∧ (m.heap e).state = .live
  /-- Acknowledgments stay. -/
  acked : m.acked ⊆ m'.acked

theorem Fades.liveAcked {m m' : SubscriptionManager} (hf : Fades m m') (h : m.LiveAcked) :
    m'.LiveAcked := by
  intro t e hlive
  rw [handleState_eq_live] at hlive
  rw [hf.client]
  exact hf.acked (h t e (handleState_eq_live.mpr (hf.live t e hlive.1 hlive.2)))

/-- The map shrinks and the states stay. -/
theorem Fades.of_shrink {m m' : SubscriptionManager} (hclient : m'.client = m.client)
    (hentries : ∀ t e, m'.entries.lookup t = some e → m.entries.lookup t = some e)
    (hheap : ∀ e, (m'.heap e).state = (m.heap e).state) (hacked : m.acked ⊆ m'.acked) :
    Fades m m' where
  client := hclient
  live := by
    intro t e ht hl
    rw [hheap] at hl
    exact ⟨hentries t e ht, hl⟩
  acked := hacked

/-- Nothing the handles read changes. -/
theorem Fades.of_same {m m' : SubscriptionManager} (hclient : m'.client = m.client)
    (hentries : m'.entries = m.entries) (hheap : ∀ e, (m'.heap e).state = (m.heap e).state)
    (hacked : m'.acked = m.acked) : Fades m m' :=
  Fades.of_shrink hclient (by rw [hentries]; exact fun _ _ h => h) hheap
    (by rw [hacked]; exact List.Subset.refl _)

theorem fades_delete {m m' : SubscriptionManager} {topic : TopicName} {cause : Cause}
    (hclient : m'.client = (m.delete topic cause).client)
    (hentries : m'.entries = (m.delete topic cause).entries)
    (hheap : m'.heap = (m.delete topic cause).heap)
    (hacked : m'.acked = (m.delete topic cause).acked) : Fades m m' := by
  have hb := sameBooks_delete topic cause m
  refine Fades.of_shrink (hclient.trans hb.client) ?_ ?_ ?_
  · rw [hentries]
    exact (Advances.delete m topic cause).entries
  · intro e
    rw [hheap, hb.heap]
  · rw [hacked, hb.acked]
    exact List.Subset.refl _

theorem fades_subscribe (m : SubscriptionManager) (topic : TopicName) (onGap : Bool) :
    Fades m (m.subscribe topic onGap) := by
  unfold subscribe
  split
  · exact Fades.of_same rfl rfl (fun _ => rfl) rfl
  · refine ⟨rfl, ?_, List.Subset.refl _⟩
    intro t e ht hl
    by_cases hnew : e = ⟨m.nextEntry⟩
    · -- the new entry is pending
      subst hnew
      simp at hl
    · rw [Table.lookup_insert_eq] at ht
      split at ht
      · exact absurd (Option.some.inj ht).symm hnew
      · refine ⟨ht, ?_⟩
        simpa [Function.update_of_ne hnew] using hl

theorem fades_update (m : SubscriptionManager) (via : ClientId) (topic : TopicName) (order : ℕ) :
    Fades m (m.update via topic order) := by
  unfold update
  split
  · exact Fades.of_same rfl rfl (fun _ => rfl) rfl
  · split
    · exact Fades.of_same rfl rfl (fun _ => rfl) rfl
    · split
      · exact Fades.of_same rfl rfl (fun _ => rfl) rfl
      · exact Fades.of_same rfl rfl (fun _ => rfl) rfl
    · exact Fades.of_same rfl rfl (fun _ => rfl) rfl

theorem fades_settle (m : SubscriptionManager) (i : ℕ) (k : Task) (c : ClientId) (o : Outcome) :
    Fades m (m.settle i k c o) := by
  have hset := settle_eq (m := m) (i := i) (k := k) (c := c) (o := o)
  refine Fades.of_shrink ?_ ?_ ?_ ?_
  · rw [hset]; rfl
  · rw [hset]; exact fun _ _ h => h
  · rw [hset]; exact fun _ => rfl
  · rw [acked_settle]; exact List.subset_append_left _ _

theorem fades_endRefused (m : SubscriptionManager) (i : ℕ) : Fades m (m.endRefused i) := by
  have hb := sameBooks_foldl_endOne (m.refusals i) m
  refine Fades.of_shrink hb.client ?_ ?_ ?_
  · intro t e ht
    exact ((lookup_foldl_endOne _ m t e).mp ht).1
  · intro e
    exact congrArg (fun heap => (heap e).state) hb.heap
  · show m.acked ⊆ ((m.refusals i).foldl endOne m).acked
    rw [hb.acked]
    exact List.Subset.refl _

theorem fades_proceeds {m m' : SubscriptionManager} {i : ℕ} (h : Proceeds m m' i) : Fades m m' :=
  Fades.of_same h.client h.entries (fun e => (h.heap e).2) h.acked

/-! ### Setting an entry live -/

/-- An acknowledged entry goes live: the law holds on exactly when the entry is gone or
acknowledged by the client in place. -/
theorem liveAcked_goLive {m m' : SubscriptionManager} (hg : Grounded m) (h : m.LiveAcked)
    {t : TopicName} {e : EntryId} (hown : m.Owns t e) (hclient : m'.client = m.client)
    (hentries : m'.entries = m.entries) (hheap : m'.heap = (m.goLive e).heap)
    (hacked : m'.acked = m.acked) :
    m'.LiveAcked ↔ (m.entries.lookup t = some e → (e, m.client) ∈ m.acked) := by
  have hlive : ((m.goLive e).heap e).state = .live := by simp [goLive, modifyEntry]
  constructor
  · intro hlaw hmapped
    have := hlaw t e (handleState_eq_live.mpr ⟨by rw [hentries]; exact hmapped, by rw [hheap]; exact hlive⟩)
    rwa [hclient, hacked] at this
  · intro hack t' e' hst
    rw [handleState_eq_live, hentries, hheap] at hst
    rw [hclient, hacked]
    by_cases he : e' = e
    · -- an entry is mapped under its own topic only
      subst he
      have ht : t' = t := by rw [← (hg.mapped_own t' e' hst.1).1, hown.1]
      subst ht
      exact hack hst.1
    · refine h t' e' (handleState_eq_live.mpr ⟨hst.1, ?_⟩)
      have := hst.2
      simpa [goLive, modifyEntry, he] using this

/-- The code behind an answered command. -/
theorem liveAcked_resume {m m' : SubscriptionManager} (hg : Grounded m) (h : m.LiveAcked) {i : ℕ}
    {k : Task} (hk : m.tasks[i]? = some k) (hr : m.resume i k = some m') :
    m'.LiveAcked ↔ m.Backed (.resume i) := by
  have hbacked : m.Backed (.resume i) ↔ ∀ r ∈ acknowledgedCall k,
      m.entries.lookup r.topic = some r.entry → r.on = m.client ∨ (r.entry, m.client) ∈ m.acked := by
    simp only [Backed, hk, Option.mem_def, Option.some.injEq, forall_eq']
  have hmem := List.mem_of_getElem? hk
  have hfades : ∀ m' : SubscriptionManager, acknowledgedCall k = none → Fades m m' →
      (m'.LiveAcked ↔ m.Backed (.resume i)) := by
    intro m' hnone hf
    rw [hbacked, hnone]
    simpa using hf.liveAcked h
  -- an acknowledgment is on record, so one by the client in place counts
  have hlive : ∀ (m' : SubscriptionManager) (t : TopicName) (e : EntryId) (c : ClientId),
      acknowledgedCall k = some ⟨t, e, c⟩ → k.subject = some (t, e) → k.issuedFor = some e →
      k.phase = some (.settled c .acknowledged) → m'.client = m.client → m'.entries = m.entries →
      m'.heap = (m.goLive e).heap → m'.acked = m.acked →
      (m'.LiveAcked ↔ m.Backed (.resume i)) := by
    intro m' t e c hcall hsub hissued hphase hclient hentries hheap hacked
    have hack := hg.acks k hmem c e hphase hissued
    rw [liveAcked_goLive hg h (hg.tasks_own k hmem t e hsub) hclient hentries hheap hacked, hbacked,
      hcall]
    simp only [Option.mem_def, Option.some.injEq, forall_eq']
    refine forall_congr' fun _ => ⟨Or.inr, ?_⟩
    rintro (rfl | hcur)
    · exact hack
    · exact hcur
  rcases resume_cases hr with ⟨t, e, c, o, rfl, rfl⟩ | ⟨t, c, o, rfl, rfl⟩ |
    ⟨g, t, e, c, o, rfl, rfl⟩ | ⟨via, t, e, n, c, o, rfl, rfl⟩
  · cases o with
    | acknowledged => exact hlive _ t e c rfl rfl rfl rfl rfl rfl rfl rfl
    | lost => exact hfades _ rfl (Fades.of_same rfl rfl (fun _ => rfl) rfl)
    | refused => exact hfades _ rfl (fades_delete rfl rfl rfl rfl)
  · exact hfades _ rfl (Fades.of_same rfl rfl (fun _ => rfl) rfl)
  · cases o with
    | acknowledged => exact hlive _ t e c rfl rfl rfl rfl rfl rfl rfl rfl
    | lost => exact hfades _ rfl (Fades.of_same rfl rfl (fun _ => rfl) rfl)
    | refused => exact hfades _ rfl (Fades.of_same rfl rfl (fun _ => rfl) rfl)
  · exact hfades _ rfl (Fades.of_same rfl rfl (fun _ => rfl) rfl)

/-! ### Another client in place -/

/-- A reattach that gets past `install` leaves nothing live; one that throws leaves
everything as it was, under another client. -/
theorem liveAcked_reattach (m : SubscriptionManager) (c : ClientId) :
    (m.reattach c).LiveAcked ↔ m.Backed (.reattach c) := by
  unfold reattach
  cases hserve : (m.peers c).serve .unary true with
  | error err =>
    have hthrows : m.installThrows c = true := by simp [installThrows, hserve]
    constructor
    · intro hlaw _ x hx hl
      exact hlaw x.1 x.2 (handleState_eq_live.mpr ⟨mem_mapped.mp hx, hl⟩)
    · intro hall t e hst
      rw [handleState_eq_live] at hst
      exact hall hthrows (t, e) (mem_mapped.mpr hst.1) hst.2
  | ok p =>
    have hpasses : m.installThrows c = false := by simp [installThrows, hserve]
    refine iff_of_true ?_ (by simp [Backed, hpasses])
    intro t e hst
    rw [handleState_eq_live] at hst
    obtain ⟨hmapped, hl⟩ := hst
    -- the loop went through every mapped entry
    have hmem : e ∈ m.entries.entries.map Sigma.snd :=
      List.mem_map.mpr ⟨⟨t, e⟩, AList.mem_lookup_iff.mp hmapped, rfl⟩
    simp only [if_pos hmem] at hl
    cases hl

/-- **A step keeps the law exactly when it is backed.** -/
theorem liveAcked_step {m m' : SubscriptionManager} {a : Action} (hg : Grounded m)
    (h : m.LiveAcked) (hstep : m.step a = some m') : m'.LiveAcked ↔ m.Backed a := by
  have hfades : Fades m m' → m.Backed a → (m'.LiveAcked ↔ m.Backed a) :=
    fun hf hc => ⟨fun _ => hc, fun _ => hf.liveAcked h⟩
  cases step_effect hstep with
  | subscribe topic onGap => exact hfades (fades_subscribe m topic onGap) trivial
  | unsubscribe topic =>
    refine hfades ?_ trivial
    unfold unsubscribe
    split
    · exact Fades.of_same rfl rfl (fun _ => rfl) rfl
    · have hf : Fades m ((m.delete topic .unsubscribed).spawn (.unsubscribe topic .building)) :=
        fades_delete rfl rfl rfl rfl
      exact hf
  | reattach c => exact liveAcked_reattach m c
  | close c => exact hfades (Fades.of_same rfl rfl (fun _ => rfl) rfl) trivial
  | claim p => exact hfades (Fades.of_same rfl rfl (fun _ => rfl) rfl) trivial
  | unclaimed e => exact hfades (Fades.of_same rfl rfl (fun _ => rfl) rfl) trivial
  | complete topic => exact hfades (fades_delete rfl rfl rfl rfl) trivial
  | update topic order => exact hfades (fades_update m _ topic order) trivial
  | emit hk hp =>
    refine hfades ?_ trivial
    unfold emit
    split
    · exact Fades.of_same rfl rfl (fun _ => rfl) rfl
    · exact Fades.of_same rfl rfl (fun _ => rfl) rfl
  | settle o hk hp => exact hfades (fades_settle m _ _ _ o) trivial
  | resume hk hr => exact liveAcked_resume hg h hk hr
  | endRefused hk => exact hfades (fades_endRefused m _) trivial
  | observed hp => exact hfades (fades_proceeds hp) trivial
  | decoded hp => exact hfades (fades_proceeds hp) trivial
  | handled hp => exact hfades (fades_proceeds hp) trivial

/-- The law backs a current step: what the client in place acknowledged stays
acknowledged. -/
theorem Current.backed {m : SubscriptionManager} {a : Action} (h : m.Current a)
    (hlaw : m.LiveAcked) : m.Backed a := by
  cases a with
  | resume i =>
    intro k hk r hr hmapped
    exact Or.inl (h k hk r hr hmapped)
  | reattach c =>
    intro hthrows x hx hlive
    rcases h hthrows with rfl | hnone
    · -- the client in place stays, and so do its acknowledgments
      exact hlaw x.1 x.2 (handleState_eq_live.mpr ⟨mem_mapped.mp hx, hlive⟩)
    · exact absurd hlive (hnone x hx)
  | _ => exact trivial

/-- A step that is not current is not backed, when the client in place once it is through
has acknowledged no mapped entry. -/
theorem not_backed_of_not_current {m m' : SubscriptionManager} {a : Action} (h : ¬ m.Current a)
    (hstep : m.step a = some m')
    (hnever : ∀ t e, m.entries.lookup t = some e → (e, m'.client) ∉ m.acked) : ¬ m.Backed a := by
  intro hb
  cases a with
  | resume i =>
    refine h fun k hk r hr hmapped => ?_
    have hclient : m'.client = m.client := client_step hstep (by simp)
    rcases hb k hk r hr hmapped with hcur | hack
    · exact hcur
    · rw [← hclient] at hack
      exact absurd hack (hnever r.topic r.entry hmapped)
  | reattach c =>
    refine h fun hthrows => Or.inr fun x hx hlive => ?_
    have hclient : m'.client = c := by
      cases hstep
      exact client_reattach m c
    have hack := hb hthrows x hx hlive
    rw [← hclient] at hack
    exact hnever x.1 x.2 (mem_mapped.mp hx) hack
  | _ => exact h trivial

/-- **Live handles and acknowledgments.**  In every state of a run of current steps, a
handle that reports `live` has a `sub/` command for its entry that the client in place
acknowledged.  And in any run, a step that is not current breaks that, unless the client
then in place had acknowledged a mapped entry before. -/
theorem live_means_acknowledged (peers : ClientId → Peer) (c : ClientId)
    (m₀ : SubscriptionManager) (hnew : new peers c = .ok m₀) :
    (∀ m, Reaches step Current m₀ m → m.LiveAcked) ∧
    ∀ m a m', Reachable step m₀ m → m.LiveAcked → m.step a = some m' → ¬ m.Current a →
      (∀ t e, m.entries.lookup t = some e → (e, m'.client) ∉ m.acked) → ¬ m'.LiveAcked := by
  have hstep : ∀ m a m', Reachable step m₀ m → m.LiveAcked → m.step a = some m' →
      (m'.LiveAcked ↔ m.Backed a) :=
    fun m a m' hr hlaw hs => liveAcked_step (grounded_of_reachable hnew hr) hlaw hs
  refine ⟨?_, ?_⟩
  · intro m hr
    refine Reaches.invariant (I := LiveAcked) ?_ ?_ hr
    · -- a new manager has no entries
      intro t e hst
      have hempty : m₀.entries = ∅ := by
        obtain ⟨p, _, rfl⟩ := new_cases hnew
        rfl
      rw [handleState_eq_live, hempty] at hst
      simp at hst
    · intro s a s' hs hlaw hcur hst
      exact (hstep s a s' hs.reachable hlaw hst).mpr (hcur.backed hlaw)
  · intro m a m' hr hlaw hs hcur hnever hlaw'
    exact not_backed_of_not_current hcur hs hnever ((hstep m a m' hr hlaw hs).mp hlaw')

/-- A subscription that goes live again on a second client. -/
theorem live_after_reattach :
    ∃ m₀ m, new (fun _ => Peer.fresh) ⟨0⟩ = .ok m₀ ∧ Reaches step Current m₀ m ∧
      m.client = ⟨1⟩ ∧ m.handleState TopicName.prices ⟨0⟩ = .live ∧ (⟨0⟩, ⟨1⟩) ∈ m.acked := by
  have hrun : ((new (fun _ => Peer.fresh) ⟨0⟩).toOption.bind fun m₀ =>
      (runs (restrict step Current) m₀
        [.subscribe TopicName.prices false, .emit 0, .settle 0 .acknowledged, .resume 0,
          .reattach ⟨1⟩, .emit 2, .settle 2 .acknowledged, .resume 2]).map
        fun m => (m.client, m.handleState TopicName.prices ⟨0⟩)) = some (⟨1⟩, .live) := by
    decide +kernel
  obtain ⟨m₀, hm₀, hmap⟩ := Option.bind_eq_some_iff.mp hrun
  obtain ⟨m, hm, hobs⟩ := Option.map_eq_some_iff.mp hmap
  simp only [Prod.mk.injEq] at hobs
  have hnew := new_of_toOption hm₀
  have hreach := Reaches.of_runs _ .start hm
  have hack := (live_means_acknowledged (fun _ => Peer.fresh) ⟨0⟩ m₀ hnew).1 m hreach
    TopicName.prices ⟨0⟩ hobs.2
  rw [hobs.1] at hack
  exact ⟨m₀, m, hnew, hreach, hobs.1, hobs.2, hack⟩

/-- The clients of the next run: client `1` is closed. -/
def secondClosed (c : ClientId) : Peer := if c = ⟨1⟩ then ⟨true, false, none⟩ else Peer.fresh

/-- A reattach to a closed client throws with that client in place, and the handle of a
subscription only the first client acknowledged still reports `live`. -/
theorem live_on_a_closed_client :
    ∃ m₀ m, new secondClosed ⟨0⟩ = .ok m₀ ∧ Reachable step m₀ m ∧
      (TopicName.prices, ⟨0⟩) ∈ m.handles ∧ m.handleState TopicName.prices ⟨0⟩ = .live ∧
      (⟨0⟩, m.client) ∉ m.acked ∧ ¬ m.LiveAcked := by
  have hrun : ((new secondClosed ⟨0⟩).toOption.bind fun m₀ =>
      (runs step m₀
        [.subscribe TopicName.prices false, .emit 0, .settle 0 .acknowledged, .resume 0,
          .reattach ⟨1⟩]).map
        fun m => (m.handles, m.handleState TopicName.prices ⟨0⟩, m.client, m.acked)) =
      some ([(TopicName.prices, ⟨0⟩)], .live, ⟨1⟩, [(⟨0⟩, ⟨0⟩)]) := by decide +kernel
  obtain ⟨m₀, hm₀, hmap⟩ := Option.bind_eq_some_iff.mp hrun
  obtain ⟨m, hm, hobs⟩ := Option.map_eq_some_iff.mp hmap
  simp only [Prod.mk.injEq] at hobs
  obtain ⟨hhandles, hlive, hclient, hacked⟩ := hobs
  have hnot : ((⟨0⟩ : EntryId), m.client) ∉ m.acked := by
    rw [hclient, hacked]
    decide
  refine ⟨m₀, m, new_of_toOption hm₀, Reachable.of_runs hm, ?_, hlive, hnot, ?_⟩
  · rw [hhandles]
    simp
  · intro hlaw
    exact hnot (hlaw TopicName.prices ⟨0⟩ hlive)

end SubscriptionManager
end Client
end TightbeamExt
