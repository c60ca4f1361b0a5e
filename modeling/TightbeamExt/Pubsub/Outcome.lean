import TightbeamExt.Pubsub.Local

/-!
# What one publish does to every sink

`Local::publish` goes through the attached entries once.  An entry whose sink is gone is
forgotten; every other sink is called with the next stamp and the payload, and its answer
goes into one of three accumulators.  What the publish then commits and returns is
decided from the accumulators alone.

The loop here writes down every call it makes.  An entry is any value at all and
`upgrade` says what sink it leads to, so two entries may lead to one sink and still
answer differently.

## Main definitions

* `Sink`, `SinkCall` — `UpdateSink::deliver`, and one call of it.
* `Local.publishThrough` — `publish` with its calls.
* `firstHardOf`, `firstSoftOf` — the first refusal of each kind among the answers.

## Main results

* `publishThrough_eq_publish` — the result and the state are those of `Local.publish`.
* `publish_outcome` — **the calls, the sinks kept, the counter and the result** of a
  publish, for every list of sinks.
-/

namespace TightbeamExt
namespace Pubsub

/-- `UpdateSink::deliver`. -/
abbrev Sink := Topic → ℕ → Octets → Except DeliverError Unit

/-- One call of a sink. -/
structure SinkCall (σ : Type*) where
  /-- The entry that led to it. -/
  entry : σ
  /-- The topic. -/
  topic : Topic
  /-- The stamp. -/
  order : ℕ
  /-- The payload. -/
  payload : Octets
  /-- What the sink said. -/
  answer : Except DeliverError Unit

/-! ### The answers -/

/-- The refusal an answer is, if it is one of the given kind. -/
def refusalOf (hard : Bool) : Except DeliverError Unit → Option DeliverError
  | .ok () => none
  | .error cause => if cause.isHard = hard then some cause else none

/-- The first hard refusal. -/
def firstHardOf (answers : List (Except DeliverError Unit)) : Option DeliverError :=
  answers.findSome? (refusalOf true)

/-- The first soft refusal. -/
def firstSoftOf (answers : List (Except DeliverError Unit)) : Option DeliverError :=
  answers.findSome? (refusalOf false)

namespace Tally

theorem firstHard_record (t : Tally) (answer : Except DeliverError Unit) :
    (t.record answer).firstHard = t.firstHard.or (refusalOf true answer) := by
  cases answer with
  | ok u => simp [record, refusalOf]
  | error cause => cases h : cause.isHard <;> simp [record, refusalOf, h]

theorem firstSoft_record (t : Tally) (answer : Except DeliverError Unit) :
    (t.record answer).firstSoft = t.firstSoft.or (refusalOf false answer) := by
  cases answer with
  | ok u => simp [record, refusalOf]
  | error cause => cases h : cause.isHard <;> simp [record, refusalOf, h]

/-- The accumulators keep the first refusal of each kind. -/
theorem firsts_recordAll : ∀ (answers : List (Except DeliverError Unit)) (t : Tally),
    (t.recordAll answers).firstHard = t.firstHard.or (firstHardOf answers) ∧
      (t.recordAll answers).firstSoft = t.firstSoft.or (firstSoftOf answers) := by
  intro answers
  induction answers with
  | nil => intro t; simp [recordAll, firstHardOf, firstSoftOf]
  | cons a answers ih =>
    intro t
    obtain ⟨hhard, hsoft⟩ := ih (t.record a)
    show ((t.record a).recordAll answers).firstHard = _ ∧
      ((t.record a).recordAll answers).firstSoft = _
    rw [hhard, hsoft, firstHard_record, firstSoft_record, Option.or_assoc, Option.or_assoc]
    refine ⟨congrArg _ ?_, congrArg _ ?_⟩
    · rw [firstHardOf, firstHardOf, List.findSome?_cons]
      cases refusalOf true a <;> rfl
    · rw [firstSoftOf, firstSoftOf, List.findSome?_cons]
      cases refusalOf false a <;> rfl

theorem answer_eq_ok_iff (t : Tally) :
    t.answer = .ok () ↔ t.firstHard = none ∧ t.commits = true := by
  obtain ⟨delivered, hard, soft⟩ := t
  cases delivered <;> cases hard <;> cases soft <;> simp [answer, commits, refused]

/-- An error carries a refusal, the hard one first. -/
theorem refused_of_answer {t : Tally} {error : BackplaneError} (h : t.answer = .error error) :
    ∃ cause, error = .refused cause ∧ t.firstHard.or t.firstSoft = some cause := by
  obtain ⟨delivered, hard, soft⟩ := t
  cases hard with
  | some cause =>
    cases h
    exact ⟨cause, rfl, rfl⟩
  | none =>
    cases delivered with
    | true => cases h
    | false =>
      cases soft with
      | none => cases h
      | some cause =>
        cases h
        exact ⟨cause, rfl, rfl⟩

end Tally

/-! ### The publish -/

/-- What a publish made: its result, the state it left and the calls. -/
structure Published (σ : Type*) where
  /-- What it returned. -/
  result : Except BackplaneError Unit
  /-- The backplane afterwards. -/
  after : Local σ
  /-- The calls, in order. -/
  calls : List (SinkCall σ)

namespace Local

variable {σ : Type*}

/-- The `retain` pass: the accumulators, the entries kept and the calls. -/
def retainThrough (upgrade : σ → Option Sink) (t : Topic) (order : ℕ) (payload : Octets) :
    Tally → List σ → Tally × List σ × List (SinkCall σ)
  | tally, [] => (tally, [], [])
  | tally, entry :: rest =>
      match upgrade entry with
      | none => retainThrough upgrade t order payload tally rest
      | some sink =>
          let answer := sink t order payload
          let r := retainThrough upgrade t order payload (tally.record answer) rest
          (r.1, entry :: r.2.1, ⟨entry, t, order, payload, answer⟩ :: r.2.2)

/-- `Local::publish`, with its calls. -/
def publishThrough (upgrade : σ → Option Sink) (t : Topic) (payload : Octets) (l : Local σ) :
    Published σ :=
  let order := saturatingSucc (l.lastOrder t)
  let (tally, kept, calls) := retainThrough upgrade t order payload .empty l.sinks
  if tally.deliveredAny then
    let after : Local σ := ⟨l.orders.insert t order, kept⟩
    match tally.firstHard with
    | some refusal => ⟨.error (.refused refusal), after, calls⟩
    | none => ⟨.ok (), after, calls⟩
  else
    match tally.firstHard.or tally.firstSoft with
    | some refusal => ⟨.error (.refused refusal), ⟨l.orders, kept⟩, calls⟩
    -- no live sinks: still advance the dense counter
    | none => ⟨.ok (), ⟨l.orders.insert t order, kept⟩, calls⟩

/-- What the entries answer at this publish. -/
def answersThrough (upgrade : σ → Option Sink) (t : Topic) (order : ℕ) (payload : Octets) :
    Answers σ :=
  fun entry => (upgrade entry).map fun sink => sink t order payload

/-- The calls of the live entries among `sinks`. -/
def callsThrough (upgrade : σ → Option Sink) (t : Topic) (order : ℕ) (payload : Octets)
    (sinks : List σ) : List (SinkCall σ) :=
  sinks.filterMap fun entry =>
    (upgrade entry).map fun sink => ⟨entry, t, order, payload, sink t order payload⟩

/-- The pass keeps and calls the live entries, in order. -/
theorem retainThrough_eq (upgrade : σ → Option Sink) (t : Topic) (order : ℕ) (payload : Octets) :
    ∀ (sinks : List σ) (tally : Tally),
      retainThrough upgrade t order payload tally sinks =
        (tally.recordAll ((callsThrough upgrade t order payload sinks).map SinkCall.answer),
          sinks.filter (fun entry => (upgrade entry).isSome),
          callsThrough upgrade t order payload sinks) := by
  intro sinks
  induction sinks with
  | nil => intro tally; rfl
  | cons entry rest ih =>
    intro tally
    cases he : upgrade entry with
    | none => simp [retainThrough, callsThrough, he, ih]
    | some sink => simp [retainThrough, callsThrough, he, ih, Tally.recordAll]

/-- The loop of `publish` sees the same answers. -/
theorem retain_answersThrough (upgrade : σ → Option Sink) (t : Topic) (order : ℕ)
    (payload : Octets) (sinks : List σ) :
    retain (answersThrough upgrade t order payload) .empty sinks =
      (Tally.empty.recordAll ((callsThrough upgrade t order payload sinks).map SinkCall.answer),
        sinks.filter fun entry => (upgrade entry).isSome) := by
  have hanswers : (calls (answersThrough upgrade t order payload) sinks).map Prod.snd =
      (callsThrough upgrade t order payload sinks).map SinkCall.answer := by
    simp only [calls, callsThrough, answersThrough, List.map_filterMap]
    refine List.filterMap_congr fun entry _ => ?_
    cases upgrade entry <;> rfl
  rw [retain_eq, hanswers]
  simp only [answersThrough, Option.isSome_map]

/-- **The publish with its calls is the publish.** -/
theorem publishThrough_eq_publish (upgrade : σ → Option Sink) (t : Topic) (payload : Octets)
    (l : Local σ) :
    ((l.publishThrough upgrade t payload).result, (l.publishThrough upgrade t payload).after) =
      l.publish t (answersThrough upgrade t (l.nextOrder t) payload) := by
  simp only [publishThrough, publish, retain_answersThrough, retainThrough_eq, nextOrder]
  generalize Tally.empty.recordAll _ = tally
  obtain ⟨delivered, hard, soft⟩ := tally
  cases delivered <;> cases hard <;> cases soft <;> rfl

/-- Some sink accepted, or there was none to call. -/
def Accepts (calls : List (SinkCall σ)) : Prop := (∃ c ∈ calls, c.answer = .ok ()) ∨ calls = []

theorem accepts_iff_commits (calls : List (SinkCall σ)) :
    (Tally.empty.recordAll (calls.map SinkCall.answer)).commits = true ↔ Accepts calls := by
  rw [Tally.commits_recordAll]
  simp only [Bool.or_eq_true, List.any_eq_true, List.mem_map, List.isEmpty_iff,
    List.map_eq_nil_iff, Accepts]
  refine or_congr_left ⟨?_, ?_⟩
  · rintro ⟨_, ⟨c, hc, rfl⟩, hok⟩
    refine ⟨c, hc, ?_⟩
    cases hanswer : c.answer with
    | ok u => rfl
    | error cause => rw [hanswer] at hok; cases hok
  · rintro ⟨c, hc, hok⟩
    exact ⟨c.answer, ⟨c, hc, rfl⟩, by rw [hok]; rfl⟩

/-- The calls of a publish. -/
theorem calls_publishThrough (upgrade : σ → Option Sink) (t : Topic) (payload : Octets)
    (l : Local σ) :
    (l.publishThrough upgrade t payload).calls =
      callsThrough upgrade t (saturatingSucc (l.lastOrder t)) payload l.sinks := by
  simp only [publishThrough, retainThrough_eq]
  split <;> split <;> rfl

/-- What it returns and leaves, from the answers it got. -/
theorem publishThrough_eq (upgrade : σ → Option Sink) (t : Topic) (payload : Octets)
    (l : Local σ) {tally : Tally}
    (htally : tally = Tally.empty.recordAll
      ((l.publishThrough upgrade t payload).calls.map SinkCall.answer)) :
    (l.publishThrough upgrade t payload).result = tally.answer ∧
      (l.publishThrough upgrade t payload).after =
        ⟨if tally.commits then l.orders.insert t (saturatingSucc (l.lastOrder t)) else l.orders,
          l.sinks.filter fun entry => (upgrade entry).isSome⟩ := by
  have hpublish := publishThrough_eq_publish upgrade t payload l
  rw [publish, retain_answersThrough, Prod.mk.injEq] at hpublish
  rw [calls_publishThrough] at htally
  rw [htally]
  exact hpublish

/-- The refusal a publish reports: the first hard one before the first soft one. -/
def reported (calls : List (SinkCall σ)) : Option DeliverError :=
  (firstHardOf (calls.map SinkCall.answer)).or (firstSoftOf (calls.map SinkCall.answer))

/-- **What one publish does.**  For every list of entries, dead or live, and whatever the
live sinks answer:

* each live sink is called once, in attach order, with the topic, the next stamp and the
  payload;
* the live entries are kept, in order;
* the counter moves to the stamp if a sink accepted or there was none to call, and stays
  otherwise, and no other counter moves;
* the result is `Ok` if and only if no sink refused hard and one accepted or there was none;
* an error carries the first hard refusal, or else the first soft one.

The next stamp is the counter plus one, and at `u64::MAX` the counter itself. -/
theorem publish_outcome (upgrade : σ → Option Sink) (l : Local σ) (t : Topic) (payload : Octets) :
    (l.publishThrough upgrade t payload).calls = (l.sinks.filterMap fun entry =>
      (upgrade entry).map fun sink =>
        ⟨entry, t, saturatingSucc (l.lastOrder t), payload,
          sink t (saturatingSucc (l.lastOrder t)) payload⟩) ∧
    (l.publishThrough upgrade t payload).after.sinks =
      l.sinks.filter (fun entry => (upgrade entry).isSome) ∧
    (∀ t', (Accepts (l.publishThrough upgrade t payload).calls →
        (l.publishThrough upgrade t payload).after.lastOrder t' =
          if t' = t then saturatingSucc (l.lastOrder t) else l.lastOrder t') ∧
      (¬ Accepts (l.publishThrough upgrade t payload).calls →
        (l.publishThrough upgrade t payload).after.lastOrder t' = l.lastOrder t')) ∧
    ((l.publishThrough upgrade t payload).result = .ok () ↔
      firstHardOf ((l.publishThrough upgrade t payload).calls.map SinkCall.answer) = none ∧
        Accepts (l.publishThrough upgrade t payload).calls) ∧
    ∀ error, (l.publishThrough upgrade t payload).result = .error error →
      ∃ cause, error = .refused cause ∧
        reported (l.publishThrough upgrade t payload).calls = some cause := by
  obtain ⟨hresult, hafter⟩ := publishThrough_eq upgrade t payload l rfl
  have hcommits := accepts_iff_commits (l.publishThrough upgrade t payload).calls
  obtain ⟨hhard, hsoft⟩ := Tally.firsts_recordAll
    ((l.publishThrough upgrade t payload).calls.map SinkCall.answer) .empty
  refine ⟨calls_publishThrough upgrade t payload l, ?_, ?_, ?_, ?_⟩
  · rw [hafter]
  · intro t'
    rw [hafter]
    refine ⟨?_, ?_⟩
    · intro haccepts
      rw [if_pos (hcommits.mpr haccepts)]
      exact lastOrder_insert l _ t t' _
    · intro hrefused
      rw [if_neg (fun h => hrefused (hcommits.mp h))]
      rfl
  · rw [hresult, Tally.answer_eq_ok_iff, hcommits, hhard]
    rfl
  · intro error herror
    rw [hresult] at herror
    obtain ⟨cause, rfl, hcause⟩ := Tally.refused_of_answer herror
    rw [hhard, hsoft] at hcause
    exact ⟨cause, rfl, hcause⟩

/-- A counter at the end of `u64`, and no sinks. -/
def spent : Local ℕ := ⟨(∅ : Table Topic ℕ).insert Topic.prices u64Max, []⟩

/-- **At `u64::MAX` the counter does not advance**, although there was no live sink: the
stamp saturates. -/
theorem counter_saturates :
    ¬ ∀ (upgrade : ℕ → Option Sink) (l : Local ℕ) (t : Topic) (payload : Octets),
      l.lastOrder t ≤ u64Max → Accepts (l.publishThrough upgrade t payload).calls →
      (l.publishThrough upgrade t payload).after.lastOrder t = l.lastOrder t + 1 := by
  intro h
  have hbad := h (fun _ => none) spent Topic.prices [] (by decide +kernel) (.inr rfl)
  revert hbad
  decide +kernel

end Local
end Pubsub
end TightbeamExt
