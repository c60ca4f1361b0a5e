import Mathlib.Data.List.Count
import Mathlib.Data.List.Infix
import Mathlib.Data.List.Nodup
import Mathlib.Data.List.Pairwise
import Mathlib.Data.List.Perm.Subperm
import Mathlib.Data.Prod.Basic
import TightbeamExt.Base.Simulation

/-!
# Total order broadcast

What a system of publishers, a sequencer and readers is for.  Messages are
submitted to topics; the sequencer takes a submitted message, stamps it above
everything it stamped on that topic and writes it to the ledger of the topic; a
reader joins a topic at the end of its ledger and is handed the entries from there
on, one after the other.

A reader is its topic, where it joined and how far it has come, so what it was
handed is a contiguous piece of the ledger by construction: readers of a topic
agree on every stamp and see the same order.

A reader may join while the newest entry is still on its way to the others, and then
gets it too.

## Main definitions

* `State`, `Label`, `Step` — the specification.
* `State.log σ r` — what a reader was handed.
* `Event` — what an observer sees of a step: a submission, an entry of the ledger.

## Main results

* `Sound.step` — the ledgers are sorted and the readers are on them.
* `ledger_of_path`, `reader_of_path` — ledgers grow by what is sequenced, readers go
  forward.
* `log_of_abreast` — **a reader abreast of its ledger twice was handed what was
  sequenced in between**.
* `subperm_of_path` — **no message is made up or doubled**.
-/

namespace Broadcast

open Transition

variable {τ π ι : Type*}

/-! ### The specification -/

/-- A reader of one topic. -/
structure Reader (τ : Type*) where
  /-- The topic. -/
  topic : τ
  /-- The length of the ledger below it. -/
  joined : ℕ
  /-- How many entries of the ledger are behind it. -/
  pos : ℕ

/-- It was handed one more entry. -/
def Reader.advance (r : Reader τ) : Reader τ := { r with pos := r.pos + 1 }

/-- A reader stays on its topic and goes forward. -/
structure Later (r r' : Reader τ) : Prop where
  /-- The topic stays. -/
  topic : r'.topic = r.topic
  /-- So does where it joined. -/
  joined : r'.joined = r.joined
  /-- It goes forward. -/
  pos : r.pos ≤ r'.pos

theorem Later.refl (r : Reader τ) : Later r r := ⟨rfl, rfl, le_rfl⟩

theorem Later.trans {r r' r'' : Reader τ} (h : Later r r') (h' : Later r' r'') : Later r r'' :=
  ⟨h'.topic.trans h.topic, h'.joined.trans h.joined, h.pos.trans h'.pos⟩

/-- Submissions, ledgers and readers. -/
structure State (τ π ι : Type*) where
  /-- Submitted and not sequenced yet. -/
  pending : List (τ × π)
  /-- The stamped messages of a topic, oldest first. -/
  ledger : τ → List (ℕ × π)
  /-- The readers. -/
  readers : ι → Option (Reader τ)

/-- Nothing submitted, nobody there. -/
def State.init : State τ π ι := ⟨[], fun _ => [], fun _ => none⟩

/-- What a reader was handed. -/
def State.log (σ : State τ π ι) (r : Reader τ) : List (ℕ × π) :=
  ((σ.ledger r.topic).take r.pos).drop r.joined

/-- What can happen. -/
inductive Label (τ π ι : Type*)
  /-- A message is submitted. -/
  | submit (t : τ) (m : π)
  /-- It is given up. -/
  | withdraw (t : τ) (m : π)
  /-- It is stamped. -/
  | sequence (t : τ) (stamp : ℕ) (m : π)
  /-- A reader joins at this length of the ledger. -/
  | join (x : ι) (t : τ) (k : ℕ)
  /-- Some readers of a topic are handed one entry each. -/
  | hand (t : τ) (who : ι → Bool)

/-- What an observer sees. -/
inductive Event (τ π : Type*)
  /-- A submission. -/
  | submitted (t : τ) (m : π)
  /-- A new entry of a ledger. -/
  | sequenced (t : τ) (stamp : ℕ) (m : π)

/-- What a label shows. -/
def Label.events : Label τ π ι → List (Event τ π)
  | .submit t m => [.submitted t m]
  | .sequence t stamp m => [.sequenced t stamp m]
  | _ => []

/-! ### Sorted ledgers, readers on them -/

variable {σ σ' : State τ π ι} {r : Reader τ}

/-- What holds between any two steps. -/
structure Sound (σ : State τ π ι) : Prop where
  /-- The stamps of a ledger increase. -/
  sorted : ∀ t, ((σ.ledger t).map Prod.fst).Pairwise (· < ·)
  /-- A reader was handed what it joined for, in order. -/
  started : ∀ x r, σ.readers x = some r → r.joined ≤ r.pos
  /-- And nothing that is not there. -/
  written : ∀ x r, σ.readers x = some r → r.pos ≤ (σ.ledger r.topic).length

theorem sound_init : Sound (State.init : State τ π ι) where
  sorted := fun _ => List.Pairwise.nil
  started := by intro x r h; cases h
  written := by intro x r h; cases h

/-- A log is a contiguous piece of the ledger. -/
theorem log_piece (σ : State τ π ι) (r : Reader τ) : σ.log r <:+: σ.ledger r.topic :=
  (List.drop_suffix _ _).isInfix.trans (List.take_prefix _ _).isInfix

/-- The log of a reader abreast of its ledger ends the ledger. -/
theorem log_suffix (h : r.pos = (σ.ledger r.topic).length) : σ.log r <:+ σ.ledger r.topic := by
  rw [State.log, h, List.take_length]
  exact List.drop_suffix _ _

/-- One entry further. -/
theorem log_advance {e : ℕ × π} (hj : r.joined ≤ r.pos)
    (he : (σ.ledger r.topic)[r.pos]? = some e) : σ.log r.advance = σ.log r ++ [e] := by
  have hlen : r.pos ≤ (σ.ledger r.topic).length := (List.getElem?_eq_some_iff.mp he).1.le
  show ((σ.ledger r.topic).take (r.pos + 1)).drop r.joined = _
  rw [List.take_add_one, he, List.drop_append_of_le_length]
  · rfl
  · rwa [List.length_take, min_eq_left hlen]

/-- Entries behind the reader are not what it was handed. -/
theorem log_of_grown (hgrown : σ.ledger r.topic <+: σ'.ledger r.topic)
    (hpos : r.pos ≤ (σ.ledger r.topic).length) : σ'.log r = σ.log r := by
  obtain ⟨rest, hrest⟩ := hgrown
  rw [State.log, State.log, ← hrest, List.take_append_of_le_length hpos]

/-! ### Observations -/

/-- The submissions among what was seen. -/
def submissionsOf (events : List (Event τ π)) : List (τ × π) :=
  events.filterMap fun
    | .submitted t m => some (t, m)
    | .sequenced _ _ _ => none

theorem submissionsOf_append (events events' : List (Event τ π)) :
    submissionsOf (events ++ events') = submissionsOf events ++ submissionsOf events' :=
  List.filterMap_append

variable [DecidableEq τ]

/-- The entries of a topic among what was seen. -/
def entriesOf (t : τ) (events : List (Event τ π)) : List (ℕ × π) :=
  events.filterMap fun
    | .sequenced t' stamp m => if t' = t then some (stamp, m) else none
    | .submitted _ _ => none

theorem entriesOf_append (t : τ) (events events' : List (Event τ π)) :
    entriesOf t (events ++ events') = entriesOf t events ++ entriesOf t events' :=
  List.filterMap_append

variable [DecidableEq π]

namespace State

/-- A message is given up. -/
def giveUp (σ : State τ π ι) (t : τ) (m : π) : State τ π ι :=
  { σ with pending := σ.pending.erase (t, m) }

/-- One more entry. -/
def write (σ : State τ π ι) (t : τ) (e : ℕ × π) : State τ π ι :=
  { σ with
    pending := σ.pending.erase (t, e.2)
    ledger := Function.update σ.ledger t (σ.ledger t ++ [e]) }

theorem ledger_write (σ : State τ π ι) (t t' : τ) (e : ℕ × π) :
    (σ.write t e).ledger t' = if t' = t then σ.ledger t' ++ [e] else σ.ledger t' := by
  show Function.update σ.ledger t (σ.ledger t ++ [e]) t' = _
  rw [Function.update_apply]
  split
  · next ht => rw [ht]
  · rfl

theorem pending_giveUp {σ : State τ π ι} {t : τ} {m : π} {rest : List (τ × π)}
    (h : σ.pending.Perm (rest ++ [(t, m)])) : (σ.giveUp t m).pending.Perm rest := by
  show (σ.pending.erase (t, m)).Perm rest
  refine (h.erase (t, m)).trans ?_
  refine ((List.perm_append_singleton (t, m) rest).erase (t, m)).trans ?_
  rw [List.erase_cons_head]

theorem pending_write {σ : State τ π ι} {t : τ} {stamp : ℕ} {m : π} {rest : List (τ × π)}
    (h : σ.pending.Perm (rest ++ [(t, m)])) : (σ.write t (stamp, m)).pending.Perm rest :=
  pending_giveUp h

/-- One entry to each of these readers. -/
def handTo (σ : State τ π ι) (who : ι → Bool) : State τ π ι :=
  { σ with readers := fun x => if who x then (σ.readers x).map Reader.advance else σ.readers x }

end State

variable [DecidableEq ι]

/-- One step. -/
inductive Step : State τ π ι → Label τ π ι → State τ π ι → Prop
  /-- Anything may be submitted. -/
  | submit (σ : State τ π ι) (t : τ) (m : π) :
      Step σ (.submit t m) { σ with pending := σ.pending ++ [(t, m)] }
  /-- Only what was submitted is given up. -/
  | withdraw {σ : State τ π ι} {t : τ} {m : π} (hm : (t, m) ∈ σ.pending) :
      Step σ (.withdraw t m) (σ.giveUp t m)
  /-- Only what was submitted is stamped, above the ledger. -/
  | sequence {σ : State τ π ι} {t : τ} {stamp : ℕ} {m : π} (hm : (t, m) ∈ σ.pending)
      (habove : ∀ e ∈ σ.ledger t, e.1 < stamp) :
      Step σ (.sequence t stamp m) (σ.write t (stamp, m))
  /-- A reader joins at the end of the ledger, or below its newest entry. -/
  | join {σ : State τ π ι} {x : ι} {t : τ} {k : ℕ} (hx : σ.readers x = none)
      (hle : k ≤ (σ.ledger t).length) (hge : (σ.ledger t).length ≤ k + 1) :
      Step σ (.join x t k) { σ with readers := Function.update σ.readers x (some ⟨t, k, k⟩) }
  /-- Entries are handed in order. -/
  | hand {σ : State τ π ι} {t : τ} {who : ι → Bool}
      (hwho : ∀ x, who x = true →
        ∃ r, σ.readers x = some r ∧ r.topic = t ∧ r.pos < (σ.ledger t).length) :
      Step σ (.hand t who) (σ.handTo who)

/-! ### What a step leaves -/

variable {r' : Reader τ} {x : ι} {l : Label τ π ι} {ls : List (Label τ π ι)}

/-- A ledger grows by what is sequenced. -/
theorem ledger_of_step (h : Step σ l σ') (t : τ) :
    σ'.ledger t = σ.ledger t ++ entriesOf t l.events := by
  cases h with
  | @sequence t' stamp m _ _ =>
    rw [State.ledger_write]
    by_cases ht : t = t'
    · simp [entriesOf, Label.events, ht]
    · simp [entriesOf, Label.events, ht, Ne.symm ht]
  | submit => simp [entriesOf, Label.events]
  | withdraw => simp [entriesOf, Label.events, State.giveUp]
  | join => simp [entriesOf, Label.events]
  | hand => simp [entriesOf, Label.events, State.handTo]

/-- **Ledgers grow by what is sequenced.** -/
theorem ledger_of_path (h : Path Step σ ls σ') (t : τ) :
    σ'.ledger t = σ.ledger t ++ entriesOf t (ls.flatMap Label.events) := by
  induction h with
  | nil => simp [entriesOf]
  | snoc _ hlast ih =>
    rw [ledger_of_step hlast, ih, List.flatMap_append, entriesOf_append, List.append_assoc,
      List.flatMap_singleton]

theorem reader_of_step (h : Step σ l σ') (hr : σ.readers x = some r) :
    ∃ r', σ'.readers x = some r' ∧ Later r r' := by
  cases h with
  | submit => exact ⟨r, hr, .refl r⟩
  | withdraw => exact ⟨r, hr, .refl r⟩
  | sequence => exact ⟨r, hr, .refl r⟩
  | @join y t k hx _ _ =>
    refine ⟨r, ?_, .refl r⟩
    show Function.update σ.readers y _ x = _
    rw [Function.update_of_ne]
    · exact hr
    · rintro rfl
      rw [hr] at hx
      cases hx
  | @hand t who hwho =>
    cases hw : who x with
    | true => exact ⟨r.advance, by simp [State.handTo, hw, hr], rfl, rfl, Nat.le_succ _⟩
    | false => exact ⟨r, by simp [State.handTo, hw, hr], .refl r⟩

/-- **Readers go forward.** -/
theorem reader_of_path (h : Path Step σ ls σ') (hr : σ.readers x = some r) :
    ∃ r', σ'.readers x = some r' ∧ Later r r' := by
  induction h with
  | nil => exact ⟨r, hr, .refl r⟩
  | snoc _ hlast ih =>
    obtain ⟨r₁, hr₁, hlater⟩ := ih
    obtain ⟨r₂, hr₂, hlater'⟩ := reader_of_step hlast hr₁
    exact ⟨r₂, hr₂, hlater.trans hlater'⟩

/-- **The step lemma.** -/
theorem Sound.step (h : Sound σ) (hst : Step σ l σ') : Sound σ' := by
  cases hst with
  | submit => exact ⟨h.sorted, h.started, h.written⟩
  | withdraw => exact ⟨h.sorted, h.started, h.written⟩
  | @sequence t stamp m hm habove =>
    refine ⟨?_, h.started, ?_⟩
    · intro t'
      rw [State.ledger_write]
      split
      · next ht =>
        rw [List.map_append, List.map_singleton]
        refine List.pairwise_append.mpr ⟨h.sorted t', List.pairwise_singleton _ _, ?_⟩
        intro a ha c hc
        rw [List.mem_singleton] at hc
        obtain ⟨e, he, rfl⟩ := List.mem_map.mp ha
        rw [hc]
        exact habove e (ht ▸ he)
      · exact h.sorted t'
    · intro x r hr
      refine (h.written x r hr).trans ?_
      rw [State.ledger_write]
      split
      · rw [List.length_append]
        exact Nat.le_add_right _ _
      · exact le_rfl
  | @join y t k hx hle hge =>
    have hnew : ∀ x r, Function.update σ.readers y (some ⟨t, k, k⟩) x = some r →
        r = ⟨t, k, k⟩ ∨ σ.readers x = some r := by
      intro x r hr
      rw [Function.update_apply] at hr
      split at hr
      · exact .inl (Option.some.inj hr).symm
      · exact .inr hr
    refine ⟨h.sorted, ?_, ?_⟩
    · intro x r hr
      rcases hnew x r hr with rfl | hold
      · exact le_rfl
      · exact h.started x r hold
    · intro x r hr
      rcases hnew x r hr with rfl | hold
      · exact hle
      · exact h.written x r hold
  | @hand t who hwho =>
    have hback : ∀ x r', (σ.handTo who).readers x = some r' →
        ∃ r, σ.readers x = some r ∧ (r' = r ∨ r' = r.advance ∧ r.pos < (σ.ledger r.topic).length) := by
      intro x r' hr'
      cases hw : who x with
      | false =>
        refine ⟨r', ?_, .inl rfl⟩
        simpa [State.handTo, hw] using hr'
      | true =>
        obtain ⟨r, hr, rfl, hlt⟩ := hwho x hw
        refine ⟨r, hr, .inr ⟨?_, hlt⟩⟩
        simp only [State.handTo, hw, hr, if_true, Option.map_some, Option.some.injEq] at hr'
        exact hr'.symm
    refine ⟨h.sorted, ?_, ?_⟩
    · intro x r' hr'
      obtain ⟨r, hr, rfl | ⟨rfl, -⟩⟩ := hback x r' hr'
      · exact h.started x _ hr
      · exact (h.started x r hr).trans (Nat.le_succ _)
    · intro x r' hr'
      obtain ⟨r, hr, rfl | ⟨rfl, hlt⟩⟩ := hback x r' hr'
      · exact h.written x _ hr
      · exact hlt

/-- **A reader abreast of its ledger twice was handed what was sequenced in
between.** -/
theorem log_of_abreast (h : Sound σ) (hpath : Path Step σ ls σ') (hr : σ.readers x = some r)
    (hr' : σ'.readers x = some r') (habreast : r.pos = (σ.ledger r.topic).length)
    (habreast' : r'.pos = (σ'.ledger r.topic).length) :
    σ'.log r' = σ.log r ++ entriesOf r.topic (ls.flatMap Label.events) := by
  obtain ⟨r₁, hr₁, hlater⟩ := reader_of_path hpath hr
  rw [hr'] at hr₁
  cases hr₁
  have hj : r.joined ≤ (σ.ledger r.topic).length := habreast ▸ h.started x r hr
  rw [State.log, hlater.topic, hlater.joined, habreast', List.take_length,
    ledger_of_path hpath r.topic, List.drop_append_of_le_length hj, State.log, habreast,
    List.take_length]

/-! ### Nothing made up -/

/-- Sequenced or waiting: at most what was submitted. -/
theorem count_of_step (h : Step σ l σ') (t : τ) (m : π) :
    ((σ'.ledger t).map Prod.snd).count m + σ'.pending.count (t, m) ≤
      ((σ.ledger t).map Prod.snd).count m + σ.pending.count (t, m) +
        (submissionsOf l.events).count (t, m) := by
  cases h with
  | submit t' m' =>
    show _ + (σ.pending ++ [(t', m')]).count (t, m) ≤ _ + [(t', m')].count (t, m)
    rw [List.count_append, ← Nat.add_assoc]
  | withdraw hm =>
    refine Nat.le_trans ?_ (Nat.le_add_right _ _)
    exact Nat.add_le_add_left (List.Sublist.count_le _ List.erase_sublist) _
  | @sequence t' stamp m' hm habove =>
    rw [State.ledger_write]
    show _ + (σ.pending.erase (t', m')).count (t, m) ≤ _
    by_cases ht : t = t'
    · subst ht
      rw [if_pos rfl, List.map_append, List.count_append, List.count_erase]
      by_cases hmm : m' = m
      · subst hmm
        have hpos := List.count_pos_iff.mpr hm
        simp only [List.map_cons, List.map_nil, List.count_singleton_self, beq_self_eq_true,
          if_true]
        omega
      · have hne : ((t, m') == (t, m)) = false := by simp [hmm]
        simp only [List.map_cons, List.map_nil, hne, List.count_singleton, beq_iff_eq, hmm]
        simp
    · rw [if_neg ht]
      refine Nat.le_trans ?_ (Nat.le_add_right _ _)
      exact Nat.add_le_add_left (List.Sublist.count_le _ List.erase_sublist) _
  | join => exact Nat.le_add_right _ _
  | hand => exact Nat.le_add_right _ _

theorem count_of_path (h : Path Step (State.init : State τ π ι) ls σ) (t : τ) (m : π) :
    ((σ.ledger t).map Prod.snd).count m + σ.pending.count (t, m) ≤
      (submissionsOf (ls.flatMap Label.events)).count (t, m) := by
  induction h with
  | nil => exact Nat.zero_le _
  | snoc _ hlast ih =>
    refine (count_of_step hlast t m).trans ?_
    rw [List.flatMap_append, List.flatMap_singleton, submissionsOf_append, List.count_append]
    exact Nat.add_le_add_right ih _

/-- **No message is made up or doubled.**  The messages of a ledger are among the
submissions, with their multiplicities. -/
theorem subperm_of_path (h : Path Step (State.init : State τ π ι) ls σ) (t : τ) :
    ((σ.ledger t).map fun e => (t, e.2)).Subperm (submissionsOf (ls.flatMap Label.events)) := by
  rw [List.subperm_ext_iff]
  intro x hx
  obtain ⟨e, -, rfl⟩ := List.mem_map.mp hx
  have hcount := count_of_path h t e.2
  have hmap : ((σ.ledger t).map fun e => (t, e.2)).count (t, e.2) =
      ((σ.ledger t).map Prod.snd).count e.2 := by
    have hboth := List.count_map_of_injective ((σ.ledger t).map Prod.snd) (Prod.mk t)
      (Prod.mk_right_injective t) e.2
    rw [List.map_map] at hboth
    exact hboth
  omega

end Broadcast
