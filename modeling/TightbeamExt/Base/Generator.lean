import Mathlib.Data.List.Range
import Mathlib.Tactic.Common

/-!
# Asynchronous generators

An asynchronous generator answers requests: `next`, `return` and `throw` each make a promise and
join a queue.  While the body runs, requests wait; when it yields, the front one is answered and
the next one, if there is one, resumes the body at once.  When the body returns or throws, the rest
of the queue is drained, and from then on every request is answered without the body.

What the body does is not said here.  It runs at a `point` of its own, and tells the generator when
it yields and when it ends; `resume` says which completion it is resumed with.

## Main definitions

* `AsyncGenerator` — the state; `request`, `yield`, `finish`, `drain`, `returned` — what is done
  to it.
* `Sound` — requests wait only where they may, and no value is answered after the end.

## Main results

* `AsyncGenerator.Sound.request`, `.yield`, `.finish`, `.returned` — **every operation keeps it.**
* `AsyncGenerator.Sound.in_order` — **requests are answered in the order they were made.**
-/

namespace Generator

/-- What a request resumes the body with. -/
inductive Completion (W E : Type*)
  /-- `next()`. -/
  | next
  /-- `return(value)`. -/
  | ret (value : W)
  /-- `throw(error)`. -/
  | throw (error : E)
  deriving DecidableEq, Repr

/-- How a request is answered. -/
inductive Answer (V W E : Type*)
  /-- `{ value, done: false }`. -/
  | value (v : V)
  /-- `{ value: undefined, done: true }`. -/
  | done
  /-- `{ value, done: true }` for the value of a `return`. -/
  | returned (value : W)
  /-- The promise rejects. -/
  | thrown (error : E)
  deriving DecidableEq, Repr

namespace Answer

variable {V W E : Type*}

/-- The value a request got. -/
def value? : Answer V W E → Option V
  | .value v => some v
  | _ => none

/-- The request got a value. -/
def IsValue (a : Answer V W E) : Prop := a.value?.isSome

end Answer

/-- How the body ends. -/
inductive Ending (W E : Type*)
  /-- It runs off its end, or returns nothing. -/
  | done
  /-- It returns the value of a `return` request. -/
  | returned (value : W)
  /-- It throws. -/
  | thrown (error : E)
  deriving DecidableEq, Repr

/-- The answer to the request the body ends for. -/
def Ending.answer {V W E : Type*} : Ending W E → Answer V W E
  | .done => .done
  | .returned value => .returned value
  | .thrown error => .thrown error

/-- How a `return` ends, once its value is awaited. -/
def Ending.ofReturn {W E : Type*} : Except E W → Ending W E
  | .ok value => .returned value
  | .error error => .thrown error

/-- `[[AsyncGeneratorState]]`. -/
inductive Phase (B : Type*)
  /-- `suspended-start`. -/
  | suspendedStart
  /-- `suspended-yield`. -/
  | suspendedYield
  /-- `executing`, with the point the body stands at. -/
  | executing (point : B)
  /-- `draining-queue`: the value of the front `return` request is awaited. -/
  | draining
  /-- `completed`. -/
  | completed
  deriving DecidableEq, Repr

/-- An asynchronous generator whose body stands at points of `B` while it runs. -/
structure AsyncGenerator (B V W E : Type*) where
  /-- Where it stands. -/
  phase : Phase B
  /-- The requests that wait for an answer, the front one first. -/
  queue : List (ℕ × Completion W E)
  /-- How many requests were made. -/
  issued : ℕ
  /-- The requests that were answered, and how. -/
  answers : List (ℕ × Answer V W E)

namespace AsyncGenerator

variable {B V W E : Type*}

/-- `AsyncGeneratorStart`. -/
def start : AsyncGenerator B V W E := ⟨.suspendedStart, [], 0, []⟩

/-- `AsyncGeneratorCompleteStep`: the front request is answered. -/
def completeStep (g : AsyncGenerator B V W E) (a : Answer V W E) : AsyncGenerator B V W E :=
  match g.queue with
  | [] => g
  | (i, _) :: rest => { g with queue := rest, answers := g.answers ++ [(i, a)] }

/-- What a drained queue answers, up to the first `return`. -/
def drained : List (ℕ × Completion W E) → List (ℕ × Answer V W E)
  | (i, .next) :: rest => (i, .done) :: drained rest
  | (i, .throw error) :: rest => (i, .thrown error) :: drained rest
  | _ => []

/-- What is left of it. -/
def undrained : List (ℕ × Completion W E) → List (ℕ × Completion W E)
  | (_, .next) :: rest => undrained rest
  | (_, .throw _) :: rest => undrained rest
  | queue => queue

/-- `AsyncGeneratorDrainQueue`. -/
def drain (g : AsyncGenerator B V W E) : AsyncGenerator B V W E where
  phase := if (undrained g.queue).isEmpty then .completed else .draining
  queue := undrained g.queue
  issued := g.issued
  answers := g.answers ++ drained g.queue

/-- The request joins the queue. -/
def enqueue (g : AsyncGenerator B V W E) (c : Completion W E) : AsyncGenerator B V W E :=
  { g with queue := g.queue ++ [(g.issued, c)], issued := g.issued + 1 }

/-- The request is answered at once. -/
def settle (g : AsyncGenerator B V W E) (a : Answer V W E) : AsyncGenerator B V W E :=
  { g with issued := g.issued + 1, answers := g.answers ++ [(g.issued, a)] }

/-- The body moves to another point. -/
def move (point : B) (g : AsyncGenerator B V W E) : AsyncGenerator B V W E :=
  { g with phase := .executing point }

/-- The body ends. -/
def finish (ending : Ending W E) (g : AsyncGenerator B V W E) : AsyncGenerator B V W E :=
  (g.completeStep ending.answer).drain

/-- The body goes on, to its next point or to its end. -/
def resumed (next : Except (Ending W E) B) (g : AsyncGenerator B V W E) : AsyncGenerator B V W E :=
  match next with
  | .ok point => g.move point
  | .error ending => g.finish ending

/-- `AsyncGenerator.prototype.next`, `return` and `throw`.  `resume` is where the body goes on, from
its start with `none` and from its `yield` with the completion. -/
def request (resume : Option (Completion W E) → Except (Ending W E) B) (c : Completion W E)
    (g : AsyncGenerator B V W E) : AsyncGenerator B V W E :=
  match g.phase, c with
  | .suspendedStart, .next => (g.enqueue c).resumed (resume none)
  | .suspendedStart, .ret _ => { g.enqueue c with phase := .draining }
  | .suspendedStart, .throw error => { g.settle (.thrown error) with phase := .completed }
  | .suspendedYield, c => (g.enqueue c).resumed (resume (some c))
  | .executing _, c => g.enqueue c
  | .draining, c => g.enqueue c
  | .completed, .next => g.settle .done
  | .completed, .ret _ => { g.enqueue c with phase := .draining }
  | .completed, .throw error => g.settle (.thrown error)

/-- `AsyncGeneratorYield`, once the value is awaited: the front request gets it, and the next one
resumes the body. -/
def yield (resume : Option (Completion W E) → Except (Ending W E) B) (v : V)
    (g : AsyncGenerator B V W E) : AsyncGenerator B V W E :=
  match (g.completeStep (.value v)).queue with
  | [] => { g.completeStep (.value v) with phase := .suspendedYield }
  | (_, c) :: _ => (g.completeStep (.value v)).resumed (resume (some c))

/-- `AsyncGeneratorAwaitReturn`, once the value settled. -/
def returned (outcome : Except E W) (g : AsyncGenerator B V W E) : AsyncGenerator B V W E :=
  g.finish (.ofReturn outcome)

/-- The values the requests got. -/
def values (g : AsyncGenerator B V W E) : List V := g.answers.filterMap fun a => a.2.value?

/-- How the body ended: the first answer that is no value. -/
def ending (g : AsyncGenerator B V W E) : Option (Answer V W E) :=
  (g.answers.find? fun a => a.2.value?.isNone).map Prod.snd

/-! ### What the operations do -/

theorem completeStep_cons {g : AsyncGenerator B V W E} {i : ℕ} {c : Completion W E}
    {rest : List (ℕ × Completion W E)} (h : g.queue = (i, c) :: rest) (a : Answer V W E) :
    g.completeStep a = { g with queue := rest, answers := g.answers ++ [(i, a)] } := by
  rw [completeStep, h]

/-- Draining answers the front of the queue, request by request. -/
theorem drained_append_undrained (queue : List (ℕ × Completion W E)) :
    (drained (V := V) queue).map Prod.fst ++ (undrained queue).map Prod.fst =
      queue.map Prod.fst := by
  induction queue with
  | nil => rfl
  | cons r rest ih =>
    obtain ⟨i, c⟩ := r
    cases c with
    | next => simpa [drained, undrained] using ih
    | throw error => simpa [drained, undrained] using ih
    | ret value => simp [drained, undrained]

theorem not_isValue_of_drained {queue : List (ℕ × Completion W E)} {a : ℕ × Answer V W E}
    (h : a ∈ drained queue) : ¬ a.2.IsValue := by
  induction queue with
  | nil => cases h
  | cons r rest ih =>
    obtain ⟨i, c⟩ := r
    cases c with
    | next =>
      rcases List.mem_cons.1 h with rfl | h
      · simp [Answer.IsValue, Answer.value?]
      · exact ih h
    | throw error =>
      rcases List.mem_cons.1 h with rfl | h
      · simp [Answer.IsValue, Answer.value?]
      · exact ih h
    | ret value => cases h

theorem undrained_front {queue : List (ℕ × Completion W E)} (h : undrained queue ≠ []) :
    ∃ i value rest, undrained queue = (i, .ret value) :: rest := by
  induction queue with
  | nil => exact absurd rfl h
  | cons r rest ih =>
    obtain ⟨i, c⟩ := r
    cases c with
    | next => exact ih h
    | throw error => exact ih h
    | ret value => exact ⟨i, value, rest, rfl⟩

/-! ### Values and endings -/

/-- The body is over. -/
def Ended : Phase B → Prop
  | .draining => True
  | .completed => True
  | _ => False

theorem isNone_value?_iff {a : Answer V W E} : a.value?.isNone = true ↔ ¬ a.IsValue := by
  cases a <;> simp [Answer.IsValue, Answer.value?]

theorem not_isValue_of_ending (ending : Ending W E) : ¬ (ending.answer (V := V)).IsValue := by
  cases ending <;> simp [Ending.answer, Answer.IsValue, Answer.value?]

theorem ending_eq_none_iff {g : AsyncGenerator B V W E} :
    g.ending = none ↔ ∀ a ∈ g.answers, a.2.IsValue := by
  unfold ending
  rw [Option.map_eq_none_iff, List.find?_eq_none]
  exact forall₂_congr fun a _ => by rw [isNone_value?_iff, not_not]

/-- More answers do not change how the body ended. -/
theorem ending_of_append {g g' : AsyncGenerator B V W E} {more : List (ℕ × Answer V W E)}
    (h : g'.answers = g.answers ++ more) (hg : g.ending ≠ none) : g'.ending = g.ending := by
  unfold ending at hg ⊢
  rw [h, List.find?_append]
  cases hfind : g.answers.find? fun a => a.2.value?.isNone with
  | none => exact absurd (by rw [hfind]; rfl) hg
  | some a => rfl

/-- The first answer that is no value is how the body ended. -/
theorem ending_of_cons {g g' : AsyncGenerator B V W E} {i : ℕ} {a : Answer V W E}
    {more : List (ℕ × Answer V W E)} (h : g'.answers = g.answers ++ (i, a) :: more)
    (ha : ¬ a.IsValue) (hg : g.ending = none) : g'.ending = some a := by
  unfold ending at hg ⊢
  rw [h, List.find?_append, Option.map_eq_none_iff.1 hg, Option.none_or, List.find?_cons,
    isNone_value?_iff.2 ha]
  rfl

theorem filterMap_value?_eq_nil {more : List (ℕ × Answer V W E)}
    (h : ∀ a ∈ more, ¬ a.2.IsValue) : more.filterMap (fun a => a.2.value?) = [] := by
  rw [List.filterMap_eq_nil_iff]
  intro a ha
  exact Option.isNone_iff_eq_none.1 (isNone_value?_iff.2 (h a ha))

theorem values_of_append {g g' : AsyncGenerator B V W E} (more : List (ℕ × Answer V W E))
    (h : g'.answers = g.answers ++ more) (hmore : ∀ a ∈ more, ¬ a.2.IsValue) :
    g'.values = g.values := by
  rw [values, h, List.filterMap_append, filterMap_value?_eq_nil hmore, List.append_nil]
  rfl

/-- The answers of a body that ends while a request waits. -/
theorem answers_finish {g : AsyncGenerator B V W E} {i : ℕ} {c : Completion W E}
    {rest : List (ℕ × Completion W E)} (h : g.queue = (i, c) :: rest) (ending : Ending W E) :
    (g.finish ending).answers = g.answers ++ (i, ending.answer) :: drained rest := by
  unfold finish
  rw [completeStep_cons h]
  simp [drain]

theorem ended_finish (g : AsyncGenerator B V W E) (ending : Ending W E) :
    Ended (g.finish ending).phase := by
  unfold finish drain
  dsimp only
  split <;> trivial

theorem values_finish {g : AsyncGenerator B V W E} (ending : Ending W E) (h : g.queue ≠ []) :
    (g.finish ending).values = g.values := by
  obtain ⟨⟨i, c⟩, rest, hqueue⟩ := List.exists_cons_of_ne_nil h
  refine values_of_append _ (answers_finish hqueue ending) fun a ha => ?_
  rcases List.mem_cons.1 ha with rfl | ha
  · exact not_isValue_of_ending ending
  · exact not_isValue_of_drained ha

theorem ending_finish {g : AsyncGenerator B V W E} (ending : Ending W E) (h : g.queue ≠ [])
    (hg : g.ending = none) : (g.finish ending).ending = some ending.answer := by
  obtain ⟨⟨i, c⟩, rest, hqueue⟩ := List.exists_cons_of_ne_nil h
  exact ending_of_cons (answers_finish hqueue ending) (not_isValue_of_ending ending) hg

/-- A request that is answered at once after the end. -/
theorem values_settle (g : AsyncGenerator B V W E) {a : Answer V W E} (ha : ¬ a.IsValue) :
    (g.settle a).values = g.values := by
  refine values_of_append [(g.issued, a)] rfl fun b hb => ?_
  rw [List.mem_singleton.1 hb]
  exact ha

theorem values_completeStep {g : AsyncGenerator B V W E} (h : g.queue ≠ []) (v : V) :
    (g.completeStep (.value v)).values = g.values ++ [v] := by
  obtain ⟨⟨i, c⟩, rest, hqueue⟩ := List.exists_cons_of_ne_nil h
  rw [completeStep_cons hqueue, values, List.filterMap_append]
  rfl

/-- A value does not end the body. -/
theorem ending_completeStep {g : AsyncGenerator B V W E} (v : V) (h : g.ending = none) :
    (g.completeStep (.value v)).ending = none := by
  cases hqueue : g.queue with
  | nil => rwa [completeStep, hqueue]
  | cons r rest =>
    obtain ⟨i, c⟩ := r
    rw [completeStep_cons hqueue, ending_eq_none_iff]
    intro a ha
    rcases List.mem_append.1 ha with ha | ha
    · exact ending_eq_none_iff.1 h a ha
    · rw [List.mem_singleton.1 ha]
      rfl

/-- A `return` does not end like the body on its own. -/
theorem ofReturn_ne_done (outcome : Except E W) : Ending.ofReturn outcome ≠ .done := by
  cases outcome <;> simp [Ending.ofReturn]

/-! ### Soundness -/

/-- Where requests may wait. -/
def Waits : Phase B → List (ℕ × Completion W E) → Prop
  | .suspendedStart, queue => queue = []
  | .suspendedYield, queue => queue = []
  | .executing _, queue => queue ≠ []
  | .draining, queue => ∃ i value rest, queue = (i, .ret value) :: rest
  | .completed, queue => queue = []

/-- Values come first: none is answered after something else, nor anything else before the body is
over. -/
def ValuesFirst (ended : Prop) (answers : List (ℕ × Answer V W E)) : Prop :=
  ∃ front back, answers = front ++ back ∧ (∀ a ∈ front, a.2.IsValue) ∧
    (∀ a ∈ back, ¬ a.2.IsValue) ∧ (¬ ended → back = [])

/-- Requests are answered in the order they were made, the ones that wait last. -/
def Ordered (g : AsyncGenerator B V W E) : Prop :=
  g.answers.map Prod.fst ++ g.queue.map Prod.fst = List.range g.issued

/-- The state of a generator that got its requests one by one. -/
structure Sound (g : AsyncGenerator B V W E) : Prop where
  /-- Requests are answered in order. -/
  order : Ordered g
  /-- Requests wait where they may. -/
  waits : Waits g.phase g.queue
  /-- Values come first. -/
  front : ValuesFirst (Ended g.phase) g.answers
  /-- A completed generator told somebody how its body ended. -/
  told : g.phase = .completed → g.ending ≠ none

theorem ValuesFirst.snoc_value {answers : List (ℕ × Answer V W E)} {ended ended' : Prop}
    (h : ValuesFirst ended answers) (hopen : ¬ ended) (i : ℕ) (v : V) :
    ValuesFirst ended' (answers ++ [(i, .value v)]) := by
  obtain ⟨front, back, rfl, hfront, -, hback⟩ := h
  refine ⟨front ++ back ++ [(i, .value v)], [], (List.append_nil _).symm, ?_, ?_, fun _ => rfl⟩
  · intro a ha
    rw [hback hopen, List.append_nil] at ha
    rcases List.mem_append.1 ha with ha | ha
    · exact hfront a ha
    · rw [List.mem_singleton.1 ha]
      rfl
  · intro a ha
    cases ha

/-- What is not a value ends the answers that are. -/
theorem ValuesFirst.append {answers more : List (ℕ × Answer V W E)} {ended ended' : Prop}
    (h : ValuesFirst ended answers) (hmore : ∀ a ∈ more, ¬ a.2.IsValue) (hended : ended') :
    ValuesFirst ended' (answers ++ more) := by
  obtain ⟨front, back, rfl, hfront, hback, -⟩ := h
  refine ⟨front, back ++ more, by rw [List.append_assoc], hfront, ?_, fun hopen => absurd hended hopen⟩
  intro a ha
  rcases List.mem_append.1 ha with ha | ha
  · exact hback a ha
  · exact hmore a ha

theorem ValuesFirst.mono {answers : List (ℕ × Answer V W E)} {ended ended' : Prop}
    (h : ValuesFirst ended answers) (hmono : ended → ended') : ValuesFirst ended' answers := by
  obtain ⟨front, back, rfl, hfront, hback, hopen⟩ := h
  exact ⟨front, back, rfl, hfront, hback, fun hended => hopen fun h => hended (hmono h)⟩

theorem Ordered.enqueue {g : AsyncGenerator B V W E} (h : Ordered g) (c : Completion W E) :
    Ordered (g.enqueue c) := by
  unfold Ordered AsyncGenerator.enqueue
  rw [List.map_append, ← List.append_assoc, show _ = _ from h, List.range_succ]
  rfl

theorem Ordered.settle {g : AsyncGenerator B V W E} (h : Ordered g) (hqueue : g.queue = [])
    (a : Answer V W E) : Ordered (g.settle a) := by
  unfold Ordered at h ⊢
  unfold AsyncGenerator.settle
  rw [hqueue, List.map_nil, List.append_nil] at h ⊢
  rw [List.map_append, h, List.range_succ]
  rfl

theorem Ordered.completeStep {g : AsyncGenerator B V W E} (h : Ordered g) (a : Answer V W E) :
    Ordered (g.completeStep a) := by
  cases hqueue : g.queue with
  | nil => rwa [AsyncGenerator.completeStep, hqueue]
  | cons r rest =>
    obtain ⟨i, c⟩ := r
    rw [completeStep_cons hqueue]
    unfold Ordered at h ⊢
    rw [hqueue] at h
    simpa using h

theorem Ordered.drain {g : AsyncGenerator B V W E} (h : Ordered g) : Ordered g.drain := by
  unfold Ordered at h ⊢
  unfold AsyncGenerator.drain
  rw [List.map_append, List.append_assoc, drained_append_undrained]
  exact h

/-- The body ends while a request waits. -/
theorem Sound.finish {g : AsyncGenerator B V W E} (h : Ordered g) (hqueue : g.queue ≠ [])
    {ended : Prop} (hfront : ValuesFirst ended g.answers) (ending : Ending W E) :
    Sound (g.finish ending) := by
  obtain ⟨⟨i, c⟩, rest, hcons⟩ := List.exists_cons_of_ne_nil hqueue
  have hanswers := answers_finish (V := V) hcons ending
  refine ⟨(h.completeStep _).drain, ?_, ?_, fun _ hnone => ?_⟩
  · unfold AsyncGenerator.finish AsyncGenerator.drain
    dsimp only
    split
    · next hempty => exact List.isEmpty_iff.1 hempty
    · next hrest => exact undrained_front fun hnil => hrest (List.isEmpty_iff.2 hnil)
  · rw [hanswers]
    refine hfront.append (fun a ha => ?_) (ended_finish g ending)
    rcases List.mem_cons.1 ha with rfl | ha
    · exact not_isValue_of_ending ending
    · exact not_isValue_of_drained ha
  · -- the front request was told how the body ended
    refine not_isValue_of_ending (V := V) ending (ending_eq_none_iff.1 hnone (i, ending.answer) ?_)
    rw [hanswers]
    exact List.mem_append_right _ List.mem_cons_self

/-- The body goes on while a request waits. -/
theorem Sound.resumed {g : AsyncGenerator B V W E} (h : Ordered g) (hqueue : g.queue ≠ [])
    (hfront : ValuesFirst False g.answers) (next : Except (Ending W E) B) :
    Sound (g.resumed next) := by
  cases next with
  | ok point => exact ⟨h, hqueue, hfront.mono False.elim, fun hphase => by cases hphase⟩
  | error ending => exact .finish h hqueue hfront ending

theorem enqueue_ne_nil (g : AsyncGenerator B V W E) (c : Completion W E) :
    (g.enqueue c).queue ≠ [] := by
  simp [enqueue]

/-- A request that is answered at once, after the end. -/
theorem Sound.settle {g : AsyncGenerator B V W E} (h : Ordered g) (hqueue : g.queue = [])
    {ended : Prop} (hfront : ValuesFirst ended g.answers) {a : Answer V W E} (ha : ¬ a.IsValue) :
    Sound ({ g.settle a with phase := .completed } : AsyncGenerator B V W E) := by
  refine ⟨h.settle hqueue a, hqueue, hfront.append (fun b hb => ?_) trivial, fun _ hnone => ?_⟩
  · rw [List.mem_singleton.1 hb]
    exact ha
  · refine ha (ending_eq_none_iff.1 hnone (g.issued, a) ?_)
    exact List.mem_append_right _ (List.mem_singleton_self _)

/-- A `return` that finds no body to resume. -/
theorem Sound.drain {g : AsyncGenerator B V W E} (h : Ordered g) (hqueue : g.queue = [])
    {ended : Prop} (hfront : ValuesFirst ended g.answers) (value : W) :
    Sound ({ g.enqueue (.ret value) with phase := .draining } : AsyncGenerator B V W E) := by
  refine ⟨h.enqueue _, ⟨g.issued, value, [], ?_⟩, hfront.mono fun _ => trivial,
    fun hphase => by cases hphase⟩
  simp [enqueue, hqueue]

/-- A request that waits behind others. -/
theorem Sound.enqueue {g : AsyncGenerator B V W E} (h : Sound g) (hqueue : g.queue ≠ [])
    (c : Completion W E) : Sound (g.enqueue c) := by
  refine ⟨h.order.enqueue c, ?_, h.front, h.told⟩
  have hwaits := h.waits
  unfold AsyncGenerator.enqueue
  dsimp only
  cases hphase : g.phase with
  | executing point => exact enqueue_ne_nil g c
  | draining =>
    rw [hphase] at hwaits
    obtain ⟨i, value, rest, hcons⟩ := hwaits
    exact ⟨i, value, rest ++ [(g.issued, c)], by rw [hcons]; rfl⟩
  | suspendedStart =>
    rw [hphase] at hwaits
    exact absurd hwaits hqueue
  | suspendedYield =>
    rw [hphase] at hwaits
    exact absurd hwaits hqueue
  | completed =>
    rw [hphase] at hwaits
    exact absurd hwaits hqueue

/-- **A request** keeps a generator sound. -/
theorem Sound.request {g : AsyncGenerator B V W E} (h : Sound g)
    (resume : Option (Completion W E) → Except (Ending W E) B) (c : Completion W E) :
    Sound (g.request resume c) := by
  have horder := h.order
  have hwaits := h.waits
  have hfront := h.front
  unfold AsyncGenerator.request
  cases hphase : g.phase with
  | suspendedStart =>
    rw [hphase] at hwaits hfront
    cases c with
    | next => exact .resumed (horder.enqueue _) (enqueue_ne_nil g _) hfront _
    | ret value => exact .drain horder hwaits hfront value
    | throw error => exact .settle horder hwaits hfront (not_isValue_of_ending (.thrown error))
  | suspendedYield =>
    rw [hphase] at hfront
    exact .resumed (horder.enqueue _) (enqueue_ne_nil g _) hfront _
  | executing point =>
    rw [hphase] at hwaits
    exact h.enqueue hwaits c
  | draining =>
    rw [hphase] at hwaits
    obtain ⟨i, value, rest, hcons⟩ := hwaits
    exact h.enqueue (by rw [hcons]; exact List.cons_ne_nil _ _) c
  | completed =>
    rw [hphase] at hwaits hfront
    have hsettle (ending : Ending W E) : Sound (g.settle (V := V) ending.answer) := by
      have h := Sound.settle horder hwaits hfront (not_isValue_of_ending (V := V) ending)
      rwa [← hphase] at h
    cases c with
    | next => exact hsettle .done
    | ret value => exact .drain horder hwaits hfront value
    | throw error => exact hsettle (.thrown error)

/-- **A `yield`** keeps a generator sound. -/
theorem Sound.yield {g : AsyncGenerator B V W E} (h : Sound g) {point : B}
    (hphase : g.phase = .executing point)
    (resume : Option (Completion W E) → Except (Ending W E) B) (v : V) :
    Sound (g.yield resume v) := by
  obtain ⟨horder, hwaits, hfront, -⟩ := h
  rw [hphase] at hwaits hfront
  obtain ⟨⟨i, c⟩, rest, hqueue⟩ := List.exists_cons_of_ne_nil hwaits
  have hordered := horder.completeStep (.value v)
  have hvalues {ended : Prop} : ValuesFirst ended (g.completeStep (.value v)).answers := by
    rw [completeStep_cons hqueue]
    exact hfront.snoc_value id i v
  unfold AsyncGenerator.yield
  split
  · next hnil => exact ⟨hordered, hnil, hvalues, fun hphase => by cases hphase⟩
  · next j c' rest' hcons =>
    exact .resumed hordered (by rw [hcons]; exact List.cons_ne_nil _ _) hvalues _

/-- **The end of the body** keeps a generator sound. -/
theorem Sound.ended {g : AsyncGenerator B V W E} (h : Sound g) {point : B}
    (hphase : g.phase = .executing point) (ending : Ending W E) : Sound (g.finish ending) := by
  have hwaits := h.waits
  rw [hphase] at hwaits
  exact .finish h.order hwaits h.front ending

/-- **The value of a `return` settles.** -/
theorem Sound.returned {g : AsyncGenerator B V W E} (h : Sound g) (hphase : g.phase = .draining)
    (outcome : Except E W) : Sound (g.returned outcome) := by
  have hwaits := h.waits
  rw [hphase] at hwaits
  obtain ⟨i, value, rest, hcons⟩ := hwaits
  exact .finish h.order (by rw [hcons]; exact List.cons_ne_nil _ _) h.front _

theorem Sound.move {g : AsyncGenerator B V W E} (h : Sound g) {point : B}
    (hphase : g.phase = .executing point) (point' : B) : Sound (g.move point') := by
  obtain ⟨horder, hwaits, hfront, -⟩ := h
  rw [hphase] at hwaits hfront
  exact ⟨horder, hwaits, hfront, fun h => by cases h⟩

theorem sound_start : Sound (start : AsyncGenerator B V W E) :=
  ⟨rfl, rfl, ⟨[], [], rfl, fun _ h => absurd h List.not_mem_nil,
    fun _ h => absurd h List.not_mem_nil, fun _ => rfl⟩, fun h => by cases h⟩

/-- **Requests are answered in the order they were made**: the `k`-th answer is for the `k`-th
request. -/
theorem Sound.in_order {g : AsyncGenerator B V W E} (h : Sound g) :
    g.answers.map Prod.fst = List.range g.answers.length := by
  have horder : _ = _ := h.order
  have hlen := congrArg List.length horder
  rw [List.length_append, List.length_map, List.length_map, List.length_range] at hlen
  have htake := congrArg (List.take g.answers.length) horder
  rw [List.take_left' (by rw [List.length_map]), List.take_range] at htake
  rw [htake]
  congr 1
  omega

/-- A generator whose body is not over answered with values only. -/
theorem Sound.ending_eq_none {g : AsyncGenerator B V W E} (h : Sound g) (hphase : ¬ Ended g.phase) :
    g.ending = none := by
  obtain ⟨front, back, hanswers, hfront, -, hback⟩ := h.front
  rw [hback hphase, List.append_nil] at hanswers
  rw [ending_eq_none_iff, hanswers]
  exact hfront

end AsyncGenerator

end Generator
