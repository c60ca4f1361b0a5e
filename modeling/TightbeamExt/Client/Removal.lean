import TightbeamExt.Client.Manager

/-!
# Why an entry leaves the map

An entry leaves the map of a subscription manager through `unsubscribe`, through an
`end/` dispatch, or through a refused `sub/` command.  The refusals are late: by the
time the calling code sees one, its topic may be subscribed anew and another client
may be in place.  `endRefused` compares the entry before it deletes, `subscribe`
deletes by name, and neither asks which client refused.

## Main definitions

* `Removal.Own` — the removal is the entry's own doing: a refusal is one of a command
  issued for that entry on the client the manager holds.
* `SubscriptionManager.Justified` — what one step needs.
* `SubscriptionManager.Fitting` — the condition on a call: no topic is subscribed anew while
  an earlier `subscribe` of it is outstanding, and no other client is attached while a `sub/`
  command is.
* `SubscriptionManager.Orderly` — what fitting calls keep.

## Main results

* `records_step` — a step removes entries for their own causes exactly when it is justified.
* `Orderly.justified` — in an orderly state every step is.
* `entry_removed_only_for_own_cause` — **removals and their causes** in runs of fitting
  steps.
* `resubscribed_entry_removed` — a late refusal takes the next subscription's entry.
-/

namespace TightbeamExt
namespace Client

open Transition Pubsub

/-! ### Own causes -/

/-- The entry left for a cause of its own. -/
def Removal.Own (r : Removal) : Prop :=
  match r.cause with
  | .unsubscribed => True
  | .completed => True
  | .refused issuedFor on => issuedFor = r.entry ∧ on = r.holder

/-- What a filter map finds once, it finds in one element. -/
theorem eq_of_nodup_filterMap {α β : Type*} {f : α → Option β} {b : β} :
    ∀ {l : List α}, (l.filterMap f).Nodup → ∀ {x y : α}, x ∈ l → y ∈ l → f x = some b →
      f y = some b → x = y := by
  intro l
  induction l with
  | nil => intro _ x y hx; cases hx
  | cons a l ih =>
    intro hnd x y hx hy hfx hfy
    have hlater : ∀ z ∈ l, f z = some b → f a ≠ some b := by
      intro z hz hfz hfa
      rw [List.filterMap_cons_some hfa, List.nodup_cons] at hnd
      exact hnd.1 (List.mem_filterMap.mpr ⟨z, hz, hfz⟩)
    rcases List.mem_cons.mp hx with rfl | hxl
    · rcases List.mem_cons.mp hy with rfl | hyl
      · rfl
      · exact absurd hfx (hlater y hyl hfy)
    · rcases List.mem_cons.mp hy with rfl | hyl
      · exact absurd hfy (hlater x hxl hfx)
      · refine ih ?_ hxl hyl hfx hfy
        cases hfa : f a with
        | none => rwa [List.filterMap_cons_none hfa] at hnd
        | some c =>
          rw [List.filterMap_cons_some hfa, List.nodup_cons] at hnd
          exact hnd.2

namespace SubscriptionManager

/-- The refusal a `subscribe` is about to see. -/
def refusedSubscribe : Task → Option Refusal
  | .subscribe t e (.settled c .refused) => some ⟨t, e, c⟩
  | _ => none

/-- What one step needs.  A refused `subscribe` goes on to find its topic gone, or its own
entry there with the command refused by the client in place; a reattach ends only topics
whose replays the client in place refused. -/
def Justified (m : SubscriptionManager) : Action → Prop
  | .resume i =>
      ∀ k ∈ m.tasks[i]?, ∀ r ∈ refusedSubscribe k, ∀ e ∈ m.entries.lookup r.topic,
        r.entry = e ∧ r.on = m.client
  | .endRefused i =>
      ∀ r ∈ m.refusals i, m.entries.lookup r.topic = some r.entry → r.on = m.client
  | _ => True

/-- The topic and entry a `subscribe` that has not returned is for. -/
def subscribing : Task → Option (TopicName × EntryId)
  | .subscribe t e _ => some (t, e)
  | _ => none

/-- The client a `sub/` command of a `subscribe` or of a replay is outstanding on.  The
refusal of a replay is outstanding until its reattach goes on. -/
def outstandingOn (m : SubscriptionManager) : Task → Option ClientId
  | .subscribe _ _ (.emitted c) => some c
  | .subscribe _ _ (.settled c _) => some c
  | .replay _ _ _ (.emitted c) => some c
  | .replay _ _ _ (.settled c _) => some c
  | .replayed g _ _ c .refused => if m.tasks[g]? = some .reattach then some c else none
  | _ => none

/-- The condition on a call.  A free topic is subscribed only when no earlier `subscribe` of
it is outstanding; another client is attached only when no `sub/` command of a `subscribe` or
of a replay is. -/
def Fitting (m : SubscriptionManager) : Action → Prop
  | .subscribe topic _ =>
      m.entries.lookup topic = none → ∀ k ∈ m.tasks, ∀ x ∈ subscribing k, x.1 ≠ topic
  | .reattach c => c = m.client ∨ ∀ k ∈ m.tasks, m.outstandingOn k = none
  | _ => True

instance (m : SubscriptionManager) (a : Action) : Decidable (m.Fitting a) :=
  match a with
  | .subscribe topic _ =>
      inferInstanceAs (Decidable (m.entries.lookup topic = none →
        ∀ k ∈ m.tasks, ∀ x ∈ subscribing k, x.1 ≠ topic))
  | .reattach c =>
      inferInstanceAs (Decidable (c = m.client ∨ ∀ k ∈ m.tasks, m.outstandingOn k = none))
  | .resume _ | .endRefused _ | .unsubscribe _ | .close _ | .serve _ _ _ | .complete _ _
  | .update _ _ _ | .emit _ | .settle _ _ | .observed _ | .decoded _ _ | .handled _ _ =>
      isTrue trivial

/-! ### The record of removals -/

/-- Every entry ever built is mapped under its topic, or its removal is on record. -/
def Accounted (m : SubscriptionManager) : Prop :=
  ∀ e : EntryId, e.val < m.nextEntry → m.entries.lookup (m.heap e).topic = some e ∨
    ∃ r ∈ m.removed, r.topic = (m.heap e).topic ∧ r.entry = e

/-- The new removals of a step, and when they are all own. -/
def Records (m m' : SubscriptionManager) (p : Prop) : Prop :=
  ∃ new, m'.removed = m.removed ++ new ∧ ((∀ r ∈ new, r.Own) ↔ p)

theorem Records.of_same {m m' : SubscriptionManager} (h : m'.removed = m.removed) :
    Records m m' True :=
  ⟨[], by rw [h, List.append_nil], by simp⟩

theorem records_delete {m m' : SubscriptionManager} {topic : TopicName} {cause : Cause}
    (h : m'.removed = (m.delete topic cause).removed) :
    Records m m' (∀ e ∈ m.entries.lookup topic, (⟨topic, e, cause, m.client⟩ : Removal).Own) := by
  refine ⟨_, h.trans (removed_delete topic cause m), ?_⟩
  cases m.entries.lookup topic with
  | none => simp
  | some e => simp

/-- What the loop of `endRefused` puts on record. -/
theorem removed_foldl_endOne (rs : List Refusal) (m : SubscriptionManager) :
    ∃ new, (rs.foldl endOne m).removed = m.removed ++ new ∧
      (∀ x ∈ new, ∃ r ∈ rs, m.entries.lookup r.topic = some r.entry ∧
        x = ⟨r.topic, r.entry, .refused r.entry r.on, m.client⟩) ∧
      ∀ r ∈ rs, m.entries.lookup r.topic = some r.entry →
        ∃ r' ∈ rs, r'.topic = r.topic ∧ r'.entry = r.entry ∧
        (⟨r'.topic, r'.entry, .refused r'.entry r'.on, m.client⟩ : Removal) ∈ new := by
  induction rs generalizing m with
  | nil => exact ⟨[], by simp, by simp, by simp⟩
  | cons r rs ih =>
    obtain ⟨new, hnew, hsound, hfull⟩ := ih (m.endOne r)
    have hclient := (sameBooks_endOne m r).client
    -- later rounds see a smaller map
    have hshrink : ∀ r' : Refusal, (m.endOne r).entries.lookup r'.topic = some r'.entry →
        m.entries.lookup r'.topic = some r'.entry := by
      intro r' hr'
      rw [lookup_endOne] at hr'
      split at hr'
      · cases hr'
      · exact hr'
    rw [List.foldl_cons, hnew]
    by_cases hmapped : m.entries.lookup r.topic = some r.entry
    · have hremoved : (m.endOne r).removed =
          m.removed ++ [⟨r.topic, r.entry, .refused r.entry r.on, m.client⟩] := by
        rw [endOne, if_pos hmapped, removed_delete, hmapped]
        rfl
      refine ⟨⟨r.topic, r.entry, .refused r.entry r.on, m.client⟩ :: new, ?_, ?_, ?_⟩
      · rw [hremoved, List.append_assoc]
        rfl
      · intro x hx
        rcases List.mem_cons.mp hx with rfl | hx
        · exact ⟨r, List.mem_cons_self, hmapped, rfl⟩
        · obtain ⟨r', hr', hlook, rfl⟩ := hsound x hx
          rw [hclient]
          exact ⟨r', List.mem_cons_of_mem r hr', hshrink r' hlook, rfl⟩
      · intro r' hr' hlook
        by_cases hsame : r'.topic = r.topic
        · -- one topic holds one entry, so this round took it
          refine ⟨r, List.mem_cons_self, hsame.symm, ?_, List.mem_cons_self⟩
          rw [hsame, hmapped] at hlook
          exact Option.some.inj hlook
        · rcases List.mem_cons.mp hr' with rfl | hr'
          · exact absurd rfl hsame
          · have hstill : (m.endOne r).entries.lookup r'.topic = some r'.entry := by
              rw [lookup_endOne, if_neg (fun hx => hsame hx.1)]
              exact hlook
            obtain ⟨r'', hr'', ht, he, hmem⟩ := hfull r' hr' hstill
            rw [hclient] at hmem
            exact ⟨r'', List.mem_cons_of_mem r hr'', ht, he, List.mem_cons_of_mem _ hmem⟩
    · have hone : m.endOne r = m := by rw [endOne, if_neg hmapped]
      rw [hone] at hsound hfull ⊢
      refine ⟨new, rfl, ?_, ?_⟩
      · intro x hx
        obtain ⟨r', hr', hlook, hx⟩ := hsound x hx
        exact ⟨r', List.mem_cons_of_mem r hr', hlook, hx⟩
      · intro r' hr' hlook
        rcases List.mem_cons.mp hr' with rfl | hr'
        · exact absurd hlook hmapped
        · obtain ⟨r'', hr'', ht, he, hmem⟩ := hfull r' hr' hlook
          exact ⟨r'', List.mem_cons_of_mem r hr'', ht, he, hmem⟩

/-- A reattach has one refusal for an entry. -/
theorem Grounded.refusal_unique {m : SubscriptionManager} (h : Grounded m) {i : ℕ} {r r' : Refusal}
    (hr : r ∈ m.refusals i) (hr' : r' ∈ m.refusals i) (he : r.entry = r'.entry) : r = r' := by
  have hreplay : ∀ k x, refusalOf i k = some x → k.replayOf = some (i, x.entry) := by
    intro k x hx
    cases k with
    | replayed g t e c o =>
      cases o with
      | refused =>
        simp only [refusalOf] at hx
        split at hx
        · next hg =>
          cases hx
          rw [hg]
          rfl
        · cases hx
      | acknowledged => cases hx
      | lost => cases hx
    | _ => cases hx
  obtain ⟨k, hk, hkr⟩ := List.mem_filterMap.mp hr
  obtain ⟨k', hk', hkr'⟩ := List.mem_filterMap.mp hr'
  have hreplay' := hreplay k' r' hkr'
  rw [← he] at hreplay'
  obtain rfl := eq_of_nodup_filterMap h.once hk hk' (hreplay k r hkr) hreplay'
  rw [hkr] at hkr'
  exact Option.some.inj hkr'

theorem records_endRefused {m : SubscriptionManager} (h : Grounded m) (i : ℕ) :
    Records m (m.endRefused i) (m.Justified (.endRefused i)) := by
  obtain ⟨new, hnew, hsound, hfull⟩ := removed_foldl_endOne (m.refusals i) m
  refine ⟨new, hnew, ?_⟩
  constructor
  · intro hown r hr hlook
    obtain ⟨r', hr', _, he, hmem⟩ := hfull r hr hlook
    rw [← h.refusal_unique hr' hr he]
    exact (hown _ hmem).2
  · intro hfit x hx
    obtain ⟨r, hr, hlook, rfl⟩ := hsound x hx
    exact ⟨rfl, hfit r hr hlook⟩

/-! ### Nothing leaves unrecorded -/

/-- No entry is new, and one that leaves the map is on record. -/
structure Keeps (m m' : SubscriptionManager) : Prop where
  /-- No entry is new. -/
  nextEntry : m'.nextEntry = m.nextEntry
  /-- Entries keep their topics. -/
  topics : ∀ e, (m'.heap e).topic = (m.heap e).topic
  /-- What left is on record. -/
  kept : ∀ t e, m.entries.lookup t = some e → m'.entries.lookup t = some e ∨
    ∃ r ∈ m'.removed, r.topic = t ∧ r.entry = e
  /-- Nothing is struck from the record. -/
  log : m.removed ⊆ m'.removed

theorem Keeps.accounted {m m' : SubscriptionManager} (hk : Keeps m m') (h : m.Accounted) :
    m'.Accounted := by
  intro e he
  rw [hk.nextEntry] at he
  rw [hk.topics]
  rcases h e he with hmap | ⟨r, hr, hrt, hre⟩
  · exact hk.kept _ e hmap
  · exact Or.inr ⟨r, hk.log hr, hrt, hre⟩

/-- The map and the record stay as they are. -/
theorem Keeps.of_same {m m' : SubscriptionManager} (hnext : m'.nextEntry = m.nextEntry)
    (htopics : ∀ e, (m'.heap e).topic = (m.heap e).topic) (hentries : m'.entries = m.entries)
    (hremoved : m'.removed = m.removed) : Keeps m m' where
  nextEntry := hnext
  topics := htopics
  kept := by rw [hentries]; exact fun _ _ he => Or.inl he
  log := by rw [hremoved]; exact List.Subset.refl _

theorem keeps_delete {m m' : SubscriptionManager} {topic : TopicName} {cause : Cause}
    (hnext : m'.nextEntry = (m.delete topic cause).nextEntry)
    (hheap : m'.heap = (m.delete topic cause).heap)
    (hentries : m'.entries = (m.delete topic cause).entries)
    (hremoved : m'.removed = (m.delete topic cause).removed) : Keeps m m' where
  nextEntry := hnext.trans (sameBooks_delete topic cause m).nextEntry
  topics := by
    intro e
    rw [hheap, (sameBooks_delete topic cause m).heap]
  kept := by
    intro t e he
    rw [hentries, hremoved, lookup_delete, removed_delete]
    by_cases ht : t = topic
    · subst ht
      exact Or.inr ⟨⟨t, e, cause, m.client⟩, by simp [he], rfl, rfl⟩
    · rw [if_neg ht]
      exact Or.inl he
  log := by
    rw [hremoved, removed_delete]
    exact List.subset_append_left _ _

theorem keeps_endRefused (m : SubscriptionManager) (i : ℕ) : Keeps m (m.endRefused i) := by
  have hb := sameBooks_foldl_endOne (m.refusals i) m
  obtain ⟨new, hnew, _, hfull⟩ := removed_foldl_endOne (m.refusals i) m
  refine ⟨hb.nextEntry, ?_, ?_, ?_⟩
  · intro e
    show (((m.refusals i).foldl endOne m).heap e).topic = _
    rw [hb.heap]
  · intro t e he
    show ((m.refusals i).foldl endOne m).entries.lookup t = some e ∨
      ∃ r ∈ ((m.refusals i).foldl endOne m).removed, r.topic = t ∧ r.entry = e
    by_cases hgone : ∃ r ∈ m.refusals i, r.topic = t ∧ r.entry = e
    · obtain ⟨r, hr, rfl, rfl⟩ := hgone
      obtain ⟨r', _, ht, hre, hmem⟩ := hfull r hr he
      right
      rw [hnew]
      exact ⟨_, List.mem_append_right _ hmem, ht, hre⟩
    · left
      rw [lookup_foldl_endOne]
      exact ⟨he, fun r hr ht hre => hgone ⟨r, hr, ht, hre⟩⟩
  · show m.removed ⊆ ((m.refusals i).foldl endOne m).removed
    rw [hnew]
    exact List.subset_append_left _ _

/-- What a step records, and that it records all that leaves. -/
def Logs (m m' : SubscriptionManager) (p : Prop) : Prop := Records m m' p ∧ Keeps m m'

/-- A step that leaves map, record and entry topics alone. -/
theorem Logs.of_same {m m' : SubscriptionManager} (hnext : m'.nextEntry = m.nextEntry)
    (htopics : ∀ e, (m'.heap e).topic = (m.heap e).topic) (hentries : m'.entries = m.entries)
    (hremoved : m'.removed = m.removed) : Logs m m' True :=
  ⟨Records.of_same hremoved, Keeps.of_same hnext htopics hentries hremoved⟩

theorem Logs.congr {m m' : SubscriptionManager} {p q : Prop} (h : Logs m m' p) (hpq : p ↔ q) :
    Logs m m' q := by
  obtain ⟨⟨new, hnew, hown⟩, hkeeps⟩ := h
  exact ⟨⟨new, hnew, hown.trans hpq⟩, hkeeps⟩

theorem logs_delete {m m' : SubscriptionManager} {topic : TopicName} {cause : Cause}
    (hnext : m'.nextEntry = (m.delete topic cause).nextEntry)
    (hheap : m'.heap = (m.delete topic cause).heap)
    (hentries : m'.entries = (m.delete topic cause).entries)
    (hremoved : m'.removed = (m.delete topic cause).removed) :
    Logs m m' (∀ e ∈ m.entries.lookup topic, (⟨topic, e, cause, m.client⟩ : Removal).Own) :=
  ⟨records_delete hremoved, keeps_delete hnext hheap hentries hremoved⟩

/-- The code behind an answered command. -/
theorem logs_resume {m m' : SubscriptionManager} {i : ℕ} {k : Task} (hk : m.tasks[i]? = some k)
    (h : m.resume i k = some m') : Logs m m' (m.Justified (.resume i)) := by
  have hfit : m.Justified (.resume i) ↔ ∀ r ∈ refusedSubscribe k, ∀ e ∈ m.entries.lookup r.topic,
      r.entry = e ∧ r.on = m.client := by
    simp only [Justified, hk, Option.mem_def, Option.some.injEq, forall_eq']
  have hlive : ∀ e e', ((m.goLive e).heap e').topic = (m.heap e').topic := fun e e' =>
    topic_modifyEntry (f := fun x => { x with state := .live }) (fun _ => rfl) e e' m
  have hsame : ∀ m' : SubscriptionManager, refusedSubscribe k = none →
      m'.nextEntry = m.nextEntry → (∀ e, (m'.heap e).topic = (m.heap e).topic) →
      m'.entries = m.entries → m'.removed = m.removed → Logs m m' (m.Justified (.resume i)) := by
    intro m' hnone hn ht he hr
    refine (Logs.of_same hn ht he hr).congr ?_
    simp [hfit, hnone]
  rcases resume_cases h with ⟨t, e, c, o, rfl, rfl⟩ | ⟨t, c, o, rfl, rfl⟩ |
    ⟨g, t, e, c, o, rfl, rfl⟩ | ⟨via, t, e, n, c, o, rfl, rfl⟩
  · cases o with
    | acknowledged => exact hsame _ rfl rfl (hlive e) rfl rfl
    | lost => exact hsame _ rfl rfl (fun _ => rfl) rfl rfl
    | refused =>
      have hlogs : Logs m (m.subscribed i t e c .refused)
          (∀ e' ∈ m.entries.lookup t, (⟨t, e', .refused e c, m.client⟩ : Removal).Own) :=
        logs_delete rfl rfl rfl rfl
      refine hlogs.congr ?_
      rw [hfit]
      simp [refusedSubscribe, Removal.Own]
  · exact hsame _ rfl rfl (fun _ => rfl) rfl rfl
  · cases o with
    | acknowledged => exact hsame _ rfl rfl (hlive e) rfl rfl
    | lost => exact hsame _ rfl rfl (fun _ => rfl) rfl rfl
    | refused => exact hsame _ rfl rfl (fun _ => rfl) rfl rfl
  · exact hsame _ rfl rfl (fun _ => rfl) rfl rfl

/-- An update that is dispatched touches neither map nor record. -/
theorem logs_update (m : SubscriptionManager) (via : ClientId) (topic : TopicName) (order : ℕ) :
    Logs m (m.update via topic order) True := by
  unfold update
  split
  · exact Logs.of_same rfl (fun _ => rfl) rfl rfl
  · split
    · exact Logs.of_same rfl (fun _ => rfl) rfl rfl
    · split
      · exact Logs.of_same rfl (fun _ => rfl) rfl rfl
      · exact Logs.of_same rfl (fun _ => rfl) rfl rfl
    · exact Logs.of_same rfl (fun _ => rfl) rfl rfl

theorem logs_reattach (m : SubscriptionManager) (c : ClientId) : Logs m (m.reattach c) True := by
  unfold reattach
  split
  · exact Logs.of_same rfl (fun _ => rfl) rfl rfl
  · refine Logs.of_same rfl ?_ rfl rfl
    intro e
    simp only
    split
    · rfl
    · rfl

theorem logs_proceeds {m m' : SubscriptionManager} {i : ℕ} (h : Proceeds m m' i) : Logs m m' True :=
  Logs.of_same h.nextEntry (fun e => (h.heap e).1) h.entries h.removed

/-- What every step but `subscribe` records. -/
theorem logs_step {m m' : SubscriptionManager} {a : Action} (hg : Grounded m)
    (hne : ∀ topic onGap, a ≠ .subscribe topic onGap) (h : m.step a = some m') :
    Logs m m' (m.Justified a) := by
  cases step_effect h with
  | subscribe topic onGap => exact absurd rfl (hne topic onGap)
  | unsubscribe topic =>
    unfold unsubscribe
    split
    · exact Logs.of_same rfl (fun _ => rfl) rfl rfl
    · have hlogs : Logs m ((m.delete topic .unsubscribed).spawn (.unsubscribe topic .building)) _ :=
        logs_delete rfl rfl rfl rfl
      exact hlogs.congr (by simp [Removal.Own, Justified])
  | reattach c => exact logs_reattach m c
  | close c => exact Logs.of_same rfl (fun _ => rfl) rfl rfl
  | claim p => exact Logs.of_same rfl (fun _ => rfl) rfl rfl
  | unclaimed e => exact Logs.of_same rfl (fun _ => rfl) rfl rfl
  | complete topic =>
    have hlogs : Logs m (m.delete topic .completed) _ := logs_delete rfl rfl rfl rfl
    exact hlogs.congr (by simp [Removal.Own, Justified])
  | update topic order => exact logs_update m _ topic order
  | emit hk hp =>
    unfold emit
    split
    · exact Logs.of_same rfl (fun _ => rfl) rfl rfl
    · exact Logs.of_same rfl (fun _ => rfl) rfl rfl
  | settle o hk hp =>
    rw [settle_eq]
    exact Logs.of_same rfl (fun _ => rfl) rfl rfl
  | resume hk hr => exact logs_resume hk hr
  | endRefused hk => exact ⟨records_endRefused hg _, keeps_endRefused m _⟩
  | observed hp => exact logs_proceeds hp
  | decoded hp => exact logs_proceeds hp
  | handled hp => exact logs_proceeds hp

/-- `subscribe` records nothing and maps its entry. -/
theorem accounted_subscribe {m : SubscriptionManager} (h : m.Accounted) (topic : TopicName)
    (onGap : Bool) :
    (m.subscribe topic onGap).Accounted ∧ (m.subscribe topic onGap).removed = m.removed := by
  unfold subscribe
  split
  · exact ⟨h, rfl⟩
  · next hnone =>
    refine ⟨?_, rfl⟩
    intro e he
    by_cases hnew : e = ⟨m.nextEntry⟩
    · subst hnew
      left
      simp [Table.lookup_insert_eq]
    · have hlt : e.val < m.nextEntry := by
        have hval : e.val ≠ m.nextEntry := fun hv => hnew (by rw [← hv])
        have : e.val < m.nextEntry + 1 := he
        omega
      have hheap : Function.update m.heap ⟨m.nextEntry⟩
          (⟨topic, TopicGate.new, onGap, .pending⟩ : Entry) e = m.heap e :=
        Function.update_of_ne hnew _ _
      show (m.entries.insert topic ⟨m.nextEntry⟩).lookup (Function.update m.heap _ _ e).topic = some e ∨
        ∃ r ∈ m.removed, r.topic = (Function.update m.heap _ _ e).topic ∧ r.entry = e
      rw [hheap, Table.lookup_insert_eq]
      rcases h e hlt with hmap | hrec
      · -- the topic was free, so no old entry is mapped there
        have hne : (m.heap e).topic ≠ topic := by
          intro ht
          rw [ht, hnone] at hmap
          cases hmap
        rw [if_neg hne]
        exact Or.inl hmap
      · exact Or.inr hrec

theorem accounted_step {m m' : SubscriptionManager} {a : Action} (hg : Grounded m)
    (ha : m.Accounted) (h : m.step a = some m') : m'.Accounted := by
  by_cases hsub : ∃ topic onGap, a = .subscribe topic onGap
  · obtain ⟨topic, onGap, rfl⟩ := hsub
    obtain rfl := Option.some.inj h
    exact (accounted_subscribe ha topic onGap).1
  · refine (logs_step hg ?_ h).2.accounted ha
    exact fun topic onGap heq => hsub ⟨topic, onGap, heq⟩

/-- **The new removals of a step are own exactly when the step is justified.** -/
theorem records_step {m m' : SubscriptionManager} {a : Action} (hg : Grounded m)
    (h : m.step a = some m') : Records m m' (m.Justified a) := by
  by_cases hsub : ∃ topic onGap, a = .subscribe topic onGap
  · obtain ⟨topic, onGap, rfl⟩ := hsub
    obtain rfl := Option.some.inj h
    refine Records.of_same ?_
    unfold subscribe
    split
    · rfl
    · rfl
  · refine (logs_step hg ?_ h).1
    exact fun topic onGap heq => hsub ⟨topic, onGap, heq⟩

/-! ### Fitting calls -/

/-- No `subscribe` is outstanding for a topic another entry is mapped under, and every
outstanding `sub/` command is on the client in place. -/
structure Orderly (m : SubscriptionManager) : Prop where
  /-- The entries of the outstanding calls. -/
  entries : ∀ k ∈ m.tasks, ∀ t e, subscribing k = some (t, e) →
    ∀ e', m.entries.lookup t = some e' → e' = e
  /-- The clients of the outstanding commands. -/
  clients : ∀ k ∈ m.tasks, ∀ c, m.outstandingOn k = some c → c = m.client

/-- In an orderly state a refusal that is seen is one of the entry that leaves, by the client
in place. -/
theorem Orderly.justified {m m' : SubscriptionManager} {a : Action} (h : m.Orderly)
    (hstep : m.step a = some m') : m.Justified a := by
  cases a with
  | resume i =>
    intro k hk r hr e he
    have hmem := List.mem_of_getElem? hk
    unfold refusedSubscribe at hr
    split at hr
    · next t e' c =>
      cases hr
      exact ⟨(h.entries _ hmem t e' rfl e he).symm, h.clients _ hmem c rfl⟩
    · cases hr
  | endRefused i =>
    intro r hr _
    simp only [step] at hstep
    split at hstep
    · next hready =>
      obtain ⟨k, hk, href⟩ := List.mem_filterMap.mp hr
      unfold refusalOf at href
      split at href
      · next g t e c =>
        split at href
        · next hgroup =>
          cases href
          refine h.clients _ hk c ?_
          rw [outstandingOn, hgroup, if_pos hready.1]
        · cases href
      · cases href
    · cases hstep
  | _ => exact trivial

@[simp] theorem subscribing_setPhase (p : Phase) (k : Task) :
    subscribing (k.setPhase p) = subscribing k := by
  cases k with
  | delivery c t e n stage => cases stage <;> rfl
  | _ => rfl

/-- What is outstanding stays so when no reattach is new. -/
theorem outstandingOn_of_step {m m' : SubscriptionManager} {k : Task} {c : ClientId}
    (hreattach : ∀ g e, k.replayOf = some (g, e) → m'.tasks[g]? = some .reattach →
      m.tasks[g]? = some .reattach)
    (h : m'.outstandingOn k = some c) : m.outstandingOn k = some c := by
  unfold outstandingOn at h
  split at h
  · exact h
  · exact h
  · exact h
  · exact h
  · next g t e c' =>
    split at h
    · next hg =>
      rw [outstandingOn, if_pos (hreattach g e rfl hg)]
      exact h
    · cases h
  · cases h

/-- Nothing is mapped anew, no reattach is new, and a new or changed call is for what an old
one was, with its command on the client in place. -/
theorem Orderly.next {m m' : SubscriptionManager} (h : m.Orderly) (hclient : m'.client = m.client)
    (hentries : ∀ t e, m'.entries.lookup t = some e → m.entries.lookup t = some e)
    (hreattach : ∀ g : ℕ, m'.tasks[g]? = some .reattach → m.tasks[g]? = some .reattach)
    (htasks : ∀ k' ∈ m'.tasks, k' ∈ m.tasks ∨
      (∀ x, subscribing k' = some x → ∃ k ∈ m.tasks, subscribing k = some x) ∧
        ∀ c, m'.outstandingOn k' = some c → c = m.client) : m'.Orderly := by
  refine ⟨?_, ?_⟩
  · intro k' hk' t e hsub e' he'
    rcases htasks k' hk' with hk | ⟨hold, _⟩
    · exact h.entries k' hk t e hsub e' (hentries t e' he')
    · obtain ⟨k, hk, hsub'⟩ := hold _ hsub
      exact h.entries k hk t e hsub' e' (hentries t e' he')
  · intro k' hk' c hc
    rw [hclient]
    rcases htasks k' hk' with hk | ⟨_, hon⟩
    · exact h.clients k' hk c (outstandingOn_of_step (fun g _ _ => hreattach g) hc)
    · exact hon c hc

/-- One call moves on. -/
theorem Orderly.set {m m' : SubscriptionManager} (h : m.Orderly) (hclient : m'.client = m.client)
    (hentries : ∀ t e, m'.entries.lookup t = some e → m.entries.lookup t = some e) {i : ℕ}
    {k k' : Task} (htasks : m'.tasks = m.tasks.set i k') (hk : m.tasks[i]? = some k)
    (hnot : k' ≠ .reattach) (hsub : ∀ x, subscribing k' = some x → subscribing k = some x)
    (hon : ∀ c, m'.outstandingOn k' = some c → c = m.client) : m'.Orderly := by
  refine h.next hclient hentries ?_ ?_
  · intro g hg
    rw [htasks] at hg
    by_cases hig : i = g
    · -- the call that moves on has not become a reattach
      subst hig
      rw [List.getElem?_set_self'] at hg
      obtain ⟨_, _, hk'⟩ := Option.map_eq_some_iff.mp hg
      exact absurd hk' hnot
    · rwa [List.getElem?_set_ne hig] at hg
  · intro x hx
    rw [htasks] at hx
    rcases List.mem_or_eq_of_mem_set hx with hx | rfl
    · exact Or.inl hx
    · exact Or.inr ⟨fun y hy => ⟨k, List.mem_of_getElem? hk, hsub y hy⟩, hon⟩

/-- One call moves on and has nothing outstanding then. -/
theorem Orderly.leave {m m' : SubscriptionManager} (h : m.Orderly) (hclient : m'.client = m.client)
    (hentries : ∀ t e, m'.entries.lookup t = some e → m.entries.lookup t = some e) {i : ℕ}
    {k k' : Task} (htasks : m'.tasks = m.tasks.set i k') (hk : m.tasks[i]? = some k)
    (hnot : k' ≠ .reattach) (hsub : subscribing k' = none) (hon : m'.outstandingOn k' = none) :
    m'.Orderly := by
  refine h.set hclient hentries htasks hk hnot ?_ ?_
  · intro x hx
    rw [hsub] at hx
    cases hx
  · intro c hc
    rw [hon] at hc
    cases hc

/-- A call that is neither a `subscribe` nor a reattach is made. -/
theorem Orderly.spawn {m m' : SubscriptionManager} (h : m.Orderly) (hclient : m'.client = m.client)
    (hentries : ∀ t e, m'.entries.lookup t = some e → m.entries.lookup t = some e) {k : Task}
    (htasks : m'.tasks = m.tasks ++ [k]) (hnot : k ≠ .reattach) (hsub : subscribing k = none)
    (hon : m'.outstandingOn k = none) : m'.Orderly := by
  refine h.next hclient hentries ?_ ?_
  · intro g hg
    rw [htasks] at hg
    rcases Nat.lt_or_ge g m.tasks.length with hlt | hge
    · rwa [List.getElem?_append_left hlt] at hg
    · rw [List.getElem?_append_right hge] at hg
      exact absurd (List.mem_singleton.mp (List.mem_of_getElem? hg)).symm hnot
  · intro x hx
    rw [htasks, List.mem_append, List.mem_singleton] at hx
    rcases hx with hx | rfl
    · exact Or.inl hx
    · refine Or.inr ⟨?_, ?_⟩
      · intro y hy
        rw [hsub] at hy
        cases hy
      · intro c hc
        rw [hon] at hc
        cases hc

/-- The calls stay as they are. -/
theorem Orderly.same {m m' : SubscriptionManager} (h : m.Orderly) (hclient : m'.client = m.client)
    (hentries : ∀ t e, m'.entries.lookup t = some e → m.entries.lookup t = some e)
    (htasks : m'.tasks = m.tasks) : m'.Orderly :=
  h.next hclient hentries (by rw [htasks]; exact fun _ hg => hg)
    (by rw [htasks]; exact fun _ hk => Or.inl hk)

theorem orderly_subscribe {m : SubscriptionManager} (hg : Grounded m) (h : m.Orderly)
    {topic : TopicName} {onGap : Bool} (hfit : m.Fitting (.subscribe topic onGap)) :
    (m.subscribe topic onGap).Orderly := by
  unfold subscribe
  split
  · exact h
  · next hnone =>
    have hfree := hfit hnone
    refine ⟨?_, ?_⟩
    · intro k hk t e hsub e' he'
      rw [Table.lookup_insert_eq] at he'
      rcases List.mem_append.mp hk with hk | hk
      · -- no outstanding call was for the topic
        have hother : t ≠ topic := hfree k hk (t, e) hsub
        rw [if_neg hother] at he'
        exact h.entries k hk t e hsub e' he'
      · -- the new call is for the entry it has just mapped
        rw [List.mem_singleton.mp hk] at hsub
        simp only [subscribing, Option.some.injEq, Prod.mk.injEq] at hsub
        obtain ⟨rfl, rfl⟩ := hsub
        rw [if_pos rfl] at he'
        exact (Option.some.inj he').symm
    · intro k hk c hc
      rcases List.mem_append.mp hk with hk | hk
      · refine h.clients k hk c (outstandingOn_of_step ?_ hc)
        intro g e hgroup hreattach
        have hlt := hg.groups k hk g e hgroup
        rwa [List.getElem?_append_left hlt] at hreattach
      · rw [List.mem_singleton.mp hk] at hc
        cases hc

theorem orderly_reattach {m : SubscriptionManager} (hg : Grounded m) (h : m.Orderly) {c : ClientId}
    (hfit : m.Fitting (.reattach c)) : (m.reattach c).Orderly := by
  -- what was outstanding is on the client attached, if there is any
  have hold : ∀ k ∈ m.tasks, ∀ c', m.outstandingOn k = some c' → c' = c := by
    intro k hk c' hc'
    rcases hfit with rfl | hnone
    · exact h.clients k hk c' hc'
    · rw [hnone k hk] at hc'
      cases hc'
  unfold reattach
  split
  · -- `install` threw, with the client already in place
    exact ⟨h.entries, hold⟩
  · refine ⟨?_, ?_⟩
    · intro k hk t e hsub
      rcases List.mem_append.mp hk with hk | hk
      · exact h.entries k hk t e hsub
      · rcases List.mem_cons.mp hk with rfl | hk
        · cases hsub
        · obtain ⟨x, _, rfl⟩ := List.mem_map.mp hk
          cases hsub
    · intro k hk c' hc'
      rcases List.mem_append.mp hk with hk | hk
      · refine hold k hk c' (outstandingOn_of_step ?_ hc')
        intro g e hgroup hreattach
        have hlt := hg.groups k hk g e hgroup
        rwa [List.getElem?_append_left hlt] at hreattach
      · rcases List.mem_cons.mp hk with rfl | hk
        · cases hc'
        · obtain ⟨x, _, rfl⟩ := List.mem_map.mp hk
          cases hc'

theorem orderly_update {m : SubscriptionManager} (h : m.Orderly) (via : ClientId) (topic : TopicName)
    (order : ℕ) : (m.update via topic order).Orderly := by
  unfold update
  split
  · exact h
  · split
    · exact h
    · split
      · exact h.spawn rfl (fun _ _ he => he) rfl (by simp) rfl rfl
      · exact h.spawn rfl (fun _ _ he => he) rfl (by simp) rfl rfl
    · unfold deliver
      split
      · exact h.spawn rfl (fun _ _ he => he) rfl (by simp) rfl rfl
      · exact h.spawn rfl (fun _ _ he => he) rfl (by simp) rfl rfl

/-- The command of a call goes on, on the client in place. -/
theorem orderly_setPhase {m m' : SubscriptionManager} (h : m.Orderly) (hclient : m'.client = m.client)
    (hentries : m'.entries = m.entries) {i : ℕ} {k : Task} {p q : Phase}
    (htasks : m'.tasks = m.tasks.set i (k.setPhase p)) (hk : m.tasks[i]? = some k)
    (hq : k.phase = some q) (hon : ∀ c, m'.outstandingOn (k.setPhase p) = some c → c = m.client) :
    m'.Orderly := by
  refine h.set hclient (by rw [hentries]; exact fun _ _ he => he) htasks hk ?_ (by simp) hon
  intro heq
  have hphase := Task.phase_setPhase (p := p) hq
  rw [heq] at hphase
  cases hphase

theorem orderly_emit {m : SubscriptionManager} (h : m.Orderly) {i : ℕ} {k : Task}
    (hk : m.tasks[i]? = some k) (hp : k.phase = some .building) : (m.emit i k).Orderly := by
  have hon : ∀ (m' : SubscriptionManager) (p : Phase),
      p = .settled m.client .lost ∨ p = .emitted m.client →
      ∀ c, m'.outstandingOn (k.setPhase p) = some c → c = m.client := by
    intro m' p hp' c hc
    cases k with
    | subscribe t e q => rcases hp' with rfl | rfl <;> exact (Option.some.inj hc).symm
    | replay g t e q => rcases hp' with rfl | rfl <;> exact (Option.some.inj hc).symm
    | delivery via t e n stage => cases stage <;> cases hc
    | unsubscribe t q => cases hc
    | replayed g t e c' o => cases hp
    | reattach => cases hp
    | finished => cases hp
  unfold emit
  split
  · exact orderly_setPhase h rfl rfl rfl hk hp (hon _ _ (Or.inl rfl))
  · exact orderly_setPhase h rfl rfl rfl hk hp (hon _ _ (Or.inr rfl))

theorem orderly_settle {m : SubscriptionManager} (h : m.Orderly) {i : ℕ} {k : Task} {c : ClientId}
    {o : Outcome} (hk : m.tasks[i]? = some k) (hp : k.phase = some (.emitted c)) :
    (m.settle i k c o).Orderly := by
  rw [settle_eq]
  refine orderly_setPhase h rfl rfl rfl hk hp ?_
  intro c' hc'
  have hmem := List.mem_of_getElem? hk
  cases k with
  | subscribe t e q =>
    obtain rfl := Option.some.inj hp
    obtain rfl := Option.some.inj hc'
    exact h.clients _ hmem c rfl
  | replay g t e q =>
    obtain rfl := Option.some.inj hp
    obtain rfl := Option.some.inj hc'
    exact h.clients _ hmem c rfl
  | delivery via t e n stage => cases stage <;> cases hc'
  | unsubscribe t q => cases hc'
  | replayed g t e c' o => cases hp
  | reattach => cases hp
  | finished => cases hp

theorem orderly_resume {m m' : SubscriptionManager} (h : m.Orderly) {i : ℕ} {k : Task}
    (hk : m.tasks[i]? = some k) (hr : m.resume i k = some m') : m'.Orderly := by
  have hmem := List.mem_of_getElem? hk
  rcases resume_cases hr with ⟨t, e, c, o, rfl, rfl⟩ | ⟨t, c, o, rfl, rfl⟩ |
    ⟨g, t, e, c, o, rfl, rfl⟩ | ⟨via, t, e, n, c, o, rfl, rfl⟩
  · cases o with
    | acknowledged =>
      exact h.leave rfl (fun _ _ he => he) rfl hk (by simp) rfl rfl
    | lost =>
      exact h.leave rfl (fun _ _ he => he) rfl hk (by simp) rfl rfl
    | refused =>
      have hb := sameBooks_delete t (.refused e c) m
      have htasks : ((m.delete t (.refused e c)).setTask i .finished).tasks =
          m.tasks.set i .finished := by
        rw [setTask, hb.tasks]
      exact h.leave hb.client (Advances.delete m t _).entries htasks hk (by simp) rfl rfl
  · exact h.leave rfl (fun _ _ he => he) rfl hk (by simp) rfl rfl
  · cases o with
    | acknowledged =>
      exact h.leave rfl (fun _ _ he => he) rfl hk (by simp) rfl rfl
    | lost =>
      exact h.leave rfl (fun _ _ he => he) rfl hk (by simp) rfl rfl
    | refused =>
      -- the refusal stays outstanding, on the client the command was on
      refine h.set rfl (fun _ _ he => he) rfl hk (by simp) (by simp [subscribing]) ?_
      intro c' hc'
      simp only [outstandingOn] at hc'
      split at hc'
      · obtain rfl := Option.some.inj hc'
        exact h.clients _ hmem c rfl
      · cases hc'
  · have hdeliver : m.deliver via t e n = .delivery via t e n .decoding ∨
        m.deliver via t e n = .finished := by
      unfold deliver
      split
      · exact Or.inl rfl
      · exact Or.inr rfl
    rcases hdeliver with hd | hd
    · rw [hd]
      exact h.leave rfl (fun _ _ he => he) rfl hk (by simp) rfl rfl
    · rw [hd]
      exact h.leave rfl (fun _ _ he => he) rfl hk (by simp) rfl rfl

theorem orderly_proceeds {m m' : SubscriptionManager} (h : m.Orderly) {i : ℕ}
    (hp : Proceeds m m' i) : m'.Orderly := by
  obtain ⟨k, k', hk, htasks, _, hphase', _, hreplay', _, hne⟩ := hp.tasks
  refine h.set hp.client (by rw [hp.entries]; exact fun _ _ he => he) htasks hk hne ?_ ?_
  · intro x hx
    cases k' with
    | subscribe t e p => cases hphase'
    | _ => cases hx
  · intro c hc
    cases k' with
    | subscribe t e p => cases hphase'
    | replay g t e p => cases hphase'
    | replayed g t e c' o => cases hreplay'
    | _ => cases hc

/-- A fitting step keeps the order. -/
theorem orderly_step {m m' : SubscriptionManager} {a : Action} (hg : Grounded m) (h : m.Orderly)
    (hfit : m.Fitting a) (hstep : m.step a = some m') : m'.Orderly := by
  cases step_effect hstep with
  | subscribe topic onGap => exact orderly_subscribe hg h hfit
  | unsubscribe topic =>
    unfold unsubscribe
    split
    · exact h
    · have hb := sameBooks_delete topic .unsubscribed m
      refine h.spawn (k := .unsubscribe topic .building) hb.client
        (Advances.delete m topic .unsubscribed).entries ?_ (by simp) rfl rfl
      rw [SubscriptionManager.spawn, hb.tasks]
  | reattach c => exact orderly_reattach hg h hfit
  | close c => exact h.same rfl (fun _ _ he => he) rfl
  | claim p => exact h.same rfl (fun _ _ he => he) rfl
  | unclaimed e => exact h
  | complete topic =>
    have hb := sameBooks_delete topic .completed m
    exact h.same hb.client (Advances.delete m topic .completed).entries hb.tasks
  | update topic order => exact orderly_update h _ topic order
  | emit hk hp => exact orderly_emit h hk hp
  | settle o hk hp => exact orderly_settle h hk hp
  | resume hk hr => exact orderly_resume h hk hr
  | @endRefused i hk =>
    have hb := sameBooks_foldl_endOne (m.refusals i) m
    have htasks : (m.endRefused i).tasks = m.tasks.set i .finished := by
      rw [SubscriptionManager.endRefused, setTask, hb.tasks]
    refine h.leave hb.client ?_ htasks hk (by simp) rfl rfl
    intro t e he
    exact ((lookup_foldl_endOne _ m t e).mp he).1
  | observed hp => exact orderly_proceeds h hp
  | decoded hp => exact orderly_proceeds h hp
  | handled hp => exact orderly_proceeds h hp

/-- The refusal of a command of `subscribe` takes what is mapped under its topic, whatever
entry that is and whoever refused. -/
theorem refusal_takes_mapped {m : SubscriptionManager} {i : ℕ} {t : TopicName} {e e' : EntryId}
    {c : ClientId} (hk : m.tasks[i]? = some (.subscribe t e (.emitted c)))
    (he' : m.entries.lookup t = some e') :
    ∃ m', runs step m [.settle i .refused, .resume i] = some m' ∧
      m'.removed = m.removed ++ [⟨t, e', .refused e c, m.client⟩] := by
  have hlt := (List.getElem?_eq_some_iff.mp hk).1
  have hsettle : m.step (.settle i .refused) =
      some (m.setTask i (.subscribe t e (.settled c .refused))) := by
    simp only [step, hk, Task.phase]
    rfl
  have hresume : (m.setTask i (.subscribe t e (.settled c .refused))).step (.resume i) =
      some ((m.setTask i (.subscribe t e (.settled c .refused))).subscribed i t e c .refused) := by
    simp [step, setTask, hlt, resume]
  refine ⟨(m.setTask i (.subscribe t e (.settled c .refused))).subscribed i t e c .refused, ?_, ?_⟩
  · simp only [runs, hsettle, hresume, Option.bind_some]
  · show ((m.setTask i (.subscribe t e (.settled c .refused))).delete t (.refused e c)).removed = _
    rw [removed_delete]
    show m.removed ++ ((m.entries.lookup t).map _).toList = _
    rw [he']
    rfl

/-- **Removals and their causes.**  Every entry ever built is mapped under its topic or
its removal is on record.  In every run of fitting steps each removal on record is the
entry's own doing: an `unsubscribe` or `end/` dispatch of its topic, or the refusal of
a `sub/` command issued for that entry on the client the manager held when the entry
left.  In any run, a command of `subscribe` in flight while its topic is mapped to another
entry, or while another client is in place, can be refused and then removes an entry for a
cause that is not its own. -/
theorem entry_removed_only_for_own_cause (peers : ClientId → Peer) (c : ClientId)
    (m₀ : SubscriptionManager) (hnew : new peers c = .ok m₀) :
    (∀ m, Reachable step m₀ m → m.Accounted) ∧
    (∀ m, Reaches step Fitting m₀ m → ∀ r ∈ m.removed, r.Own) ∧
    ∀ m i t e e' on, Reachable step m₀ m → m.tasks[i]? = some (.subscribe t e (.emitted on)) →
      m.entries.lookup t = some e' → e' ≠ e ∨ on ≠ m.client →
      ∃ m', runs step m [.settle i .refused, .resume i] = some m' ∧ ¬ ∀ r ∈ m'.removed, r.Own := by
  have hempty : m₀.removed = [] ∧ m₀.nextEntry = 0 ∧ m₀.tasks = [] := by
    obtain ⟨p, _, rfl⟩ := new_cases hnew
    exact ⟨rfl, rfl, rfl⟩
  refine ⟨?_, ?_, ?_⟩
  · intro m hr
    refine Reaches.invariant (I := Accounted) ?_ ?_ hr
    · intro e he
      rw [hempty.2.1] at he
      exact absurd he (Nat.not_lt_zero _)
    · intro s a s' hs ha _ hst
      exact accounted_step (grounded_of_reachable hnew hs) ha hst
  · intro m hr
    have hboth : m.Orderly ∧ ∀ r ∈ m.removed, r.Own := by
      refine Reaches.invariant (I := fun m => m.Orderly ∧ ∀ r ∈ m.removed, r.Own) ?_ ?_ hr
      · refine ⟨⟨?_, ?_⟩, ?_⟩
        · rw [hempty.2.2]
          intro k hk
          cases hk
        · rw [hempty.2.2]
          intro k hk
          cases hk
        · rw [hempty.1]
          intro r hmem
          cases hmem
      · intro s a s' hs ⟨horder, hown⟩ hfit hst
        have hg := grounded_of_reachable hnew hs.reachable
        refine ⟨orderly_step hg horder hfit hst, ?_⟩
        obtain ⟨new, hrec, hiff⟩ := records_step hg hst
        have hnewown := hiff.mpr (horder.justified hst)
        rw [hrec]
        intro r hmem
        rcases List.mem_append.mp hmem with hmem | hmem
        · exact hown r hmem
        · exact hnewown r hmem
    exact hboth.2
  · intro m i t e e' on _ hk he' hforeign
    obtain ⟨m', hrun, hremoved⟩ := refusal_takes_mapped hk he'
    refine ⟨m', hrun, ?_⟩
    intro hown
    have hlast : (⟨t, e', .refused e on, m.client⟩ : Removal).Own := by
      refine hown _ ?_
      rw [hremoved]
      exact List.mem_append_right _ (List.mem_singleton_self _)
    rcases hforeign with hne | hne
    · exact hne hlast.1.symm
    · exact hne hlast.2

/-- A refused subscription takes its own entry with it. -/
theorem entry_removed_after_refusal :
    ∃ m₀ m, new (fun _ => Peer.fresh) ⟨0⟩ = .ok m₀ ∧ Reaches step Fitting m₀ m ∧
      m.removed = [⟨TopicName.prices, ⟨0⟩, .refused ⟨0⟩ ⟨0⟩, ⟨0⟩⟩] ∧ ∀ r ∈ m.removed, r.Own := by
  have hrun : ((new (fun _ => Peer.fresh) ⟨0⟩).toOption.bind fun m₀ =>
      (runs (restrict step Fitting) m₀
        [.subscribe TopicName.prices false, .emit 0, .settle 0 .refused, .resume 0]).map
        fun m => m.removed) = some [⟨TopicName.prices, ⟨0⟩, .refused ⟨0⟩ ⟨0⟩, ⟨0⟩⟩] := by
    decide +kernel
  obtain ⟨m₀, hm₀, hmap⟩ := Option.bind_eq_some_iff.mp hrun
  obtain ⟨m, hm, hobs⟩ := Option.map_eq_some_iff.mp hmap
  have hnew : new (fun _ => Peer.fresh) ⟨0⟩ = .ok m₀ := new_of_toOption hm₀
  have hreach := Reaches.of_runs _ .start hm
  exact ⟨m₀, m, hnew, hreach, hobs,
    (entry_removed_only_for_own_cause (fun _ => Peer.fresh) ⟨0⟩ m₀ hnew).2.1 m hreach⟩

/-- A topic is unsubscribed and subscribed anew while its first `sub/` command is in
flight.  The refusal of that command removes the new entry. -/
theorem resubscribed_entry_removed :
    ∃ m₀ m, new (fun _ => Peer.fresh) ⟨0⟩ = .ok m₀ ∧ Reachable step m₀ m ∧
      (⟨TopicName.prices, ⟨1⟩, .refused ⟨0⟩ ⟨0⟩, ⟨0⟩⟩ : Removal) ∈ m.removed ∧
      ¬ ∀ r ∈ m.removed, r.Own := by
  have hrun : ((new (fun _ => Peer.fresh) ⟨0⟩).toOption.bind fun m₀ =>
      (runs step m₀
        [.subscribe TopicName.prices false, .emit 0, .unsubscribe TopicName.prices,
          .subscribe TopicName.prices false, .settle 0 .refused, .resume 0]).map
        fun m => m.removed) =
      some [⟨TopicName.prices, ⟨0⟩, .unsubscribed, ⟨0⟩⟩,
        ⟨TopicName.prices, ⟨1⟩, .refused ⟨0⟩ ⟨0⟩, ⟨0⟩⟩] := by decide +kernel
  obtain ⟨m₀, hm₀, hmap⟩ := Option.bind_eq_some_iff.mp hrun
  obtain ⟨m, hm, hobs⟩ := Option.map_eq_some_iff.mp hmap
  have hmem : (⟨TopicName.prices, ⟨1⟩, .refused ⟨0⟩ ⟨0⟩, ⟨0⟩⟩ : Removal) ∈ m.removed := by
    rw [hobs]
    simp
  refine ⟨m₀, m, new_of_toOption hm₀, Reachable.of_runs hm, hmem, ?_⟩
  intro hown
  have hentry := (hown _ hmem).1
  cases hentry

end SubscriptionManager
end Client
end TightbeamExt
