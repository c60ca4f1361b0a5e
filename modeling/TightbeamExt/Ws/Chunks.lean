import TightbeamExt.Base.Generator
import TightbeamExt.Ws.Duplex

/-!
# The chunks of a body as an asynchronous generator

The application never calls `nextChunk`: it reads a body through `bodyChunks`, an asynchronous
generator that calls `nextChunk`, awaits it and yields the chunk, until there is none.  A body that
is asked for a chunk while another call is on its way would reject, and a reader that does not wait
makes such calls; the queue of the generator is what keeps them apart.

A duplex stream and the body of a served stream are read in the same way; the second one has no
sink.

## Main definitions

* `DuplexStream`, `DuplexStream.step` — the stream the application sees, over the handle.
* `DuplexStream.Holds` — where the chunks of the peer are.

## Main results

* `DuplexStream.faithful_of_trace` — **readers get the chunks of the peer, each once and in
  order, whatever overlaps.**
-/

namespace TightbeamExt
namespace Ws

open Asn (Octets)
open Transition Generator

/-! ### The reader -/

/-- What the promises of a body reject with. -/
inductive Thrown (E : Type)
  /-- What `nextChunk` rejected with. -/
  | fault (fault : StreamFault)
  /-- What the application threw into the generator. -/
  | raised (error : E)
  deriving DecidableEq, Repr

/-- Where the body of `bodyChunks` stands. -/
inductive Point (W : Type)
  /-- It is about to call `nextChunk`. -/
  | calling
  /-- It awaits the promise of a `nextChunk`. -/
  | awaiting (i : ℕ)
  /-- It awaits the chunk it yields. -/
  | yielding (chunk : Octets)
  /-- It awaits the value of a `return` at its `yield`. -/
  | unwrapping (value : W)
  deriving DecidableEq, Repr

/-- `bodyChunks`. -/
abbrev BodyChunks (W E : Type) := AsyncGenerator (Point W) Octets W (Thrown E)

namespace BodyChunks

variable {W E : Type}

/-- Where the loop goes on: to the next call, or out of the `yield`. -/
def resume : Option (Completion W (Thrown E)) → Except (Ending W (Thrown E)) (Point W)
  | none => .ok .calling
  | some .next => .ok .calling
  | some (.ret value) => .ok (.unwrapping value)
  | some (.throw error) => .error (.thrown error)

/-- The loop after the await of `nextChunk`. -/
def received (outcome : Settlement) (g : BodyChunks W E) : BodyChunks W E :=
  match outcome with
  | .ok (some chunk) => g.move (.yielding chunk)
  | .ok none => g.finish .done
  | .error fault => g.finish (.thrown (.fault fault))

/-- The `return` at a `yield`, after the await of its value. -/
def unwrapped (outcome : Except (Thrown E) W) (g : BodyChunks W E) : BodyChunks W E :=
  g.finish (.ofReturn outcome)

end BodyChunks

/-- `wrapDuplexStream`: a handle, and the generator over its body. -/
structure DuplexStream (W E : Type) where
  /-- The handle. -/
  stream : MuxDuplexStream
  /-- The generator. -/
  body : BodyChunks W E

/-- One step of a duplex stream. -/
inductive DuplexStreamAction (W E : Type)
  /-- The application calls `push`, `close` or `closeWith`. -/
  | sink (c : SinkCall)
  /-- The body of a promise of the handle runs to its await. -/
  | start (i : ℕ)
  /-- The library's call on the sink returns. -/
  | sinkDone (i : ℕ) (outcome : Except LibraryFault Unit)
  /-- The library's call on the body returns. -/
  | chunkDone (i : ℕ) (answer : BodyAnswer)
  /-- The application calls `next`, `return` or `throw`. -/
  | request (c : Completion W (Thrown E))
  /-- The loop goes on after `nextChunk`. -/
  | received
  /-- The loop yields, its chunk awaited. -/
  | yielded
  /-- The value of a `return` at the `yield` settled. -/
  | unwrapped (outcome : Except (Thrown E) W)
  /-- The value of a `return` settled that found no loop to leave. -/
  | returned (outcome : Except (Thrown E) W)

namespace DuplexStream

variable {W E : Type}

/-- A stream nobody has read yet.  The body of a served stream comes without a sink. -/
def wrap (sink : Option RequestSink) (body : StreamBody) : DuplexStream W E :=
  ⟨⟨⟨sink, some body⟩, [], []⟩, .start⟩

/-- The loop runs to the await of `nextChunk`. -/
def run (s : DuplexStream W E) : DuplexStream W E :=
  match s.body.phase with
  | .executing .calling =>
      ⟨{ s.stream with tasks := s.stream.tasks ++ [⟨.nextChunk, .spawned⟩] },
        s.body.move (.awaiting s.stream.tasks.length)⟩
  | _ => s

/-- The handle moves. -/
def handle (s : DuplexStream W E) (a : DuplexAction) : Option (DuplexStream W E) :=
  (s.stream.step a).map fun stream => { s with stream := stream }

/-- One step. -/
def step (s : DuplexStream W E) : DuplexStreamAction W E → Option (DuplexStream W E)
  | .sink c => s.handle (.call (.sink c))
  | .start i => s.handle (.start i)
  | .sinkDone i outcome => s.handle (.sinkDone i outcome)
  | .chunkDone i answer => s.handle (.chunkDone i answer)
  | .request c => some (run { s with body := s.body.request BodyChunks.resume c })
  | .received =>
      match s.body.phase with
      | .executing (.awaiting i) =>
          match s.stream.tasks[i]? with
          | some ⟨_, .settled outcome⟩ => some { s with body := s.body.received outcome }
          | _ => none
      | _ => none
  | .yielded =>
      match s.body.phase with
      | .executing (.yielding chunk) =>
          some (run { s with body := s.body.yield BodyChunks.resume chunk })
      | _ => none
  | .unwrapped outcome =>
      match s.body.phase with
      | .executing (.unwrapping _) => some { s with body := s.body.unwrapped outcome }
      | _ => none
  | .returned outcome =>
      match s.body.phase with
      | .draining => some { s with body := s.body.returned outcome }
      | _ => none

/-! ### Where the chunks are -/

/-- The promise of a `nextChunk` the loop awaits, and the chunks with it. -/
inductive Awaited (peer : StreamBody) (values : List Octets) (stream : MuxDuplexStream) (i : ℕ) :
    Prop
  /-- It has not run yet. -/
  | spawned (body : StreamBody) (htask : stream.tasks[i]? = some ⟨.nextChunk, .spawned⟩)
      (hbody : stream.inner.body = some body) (hchunks : peer.chunks = values ++ body.chunks)
  /-- It reads the body. -/
  | reading (body : StreamBody) (htask : stream.tasks[i]? = some ⟨.nextChunk, .reading body⟩)
      (hchunks : peer.chunks = values ++ body.chunks)
  /-- It has the next chunk. -/
  | chunk (body : StreamBody) (chunk : Octets)
      (htask : stream.tasks[i]? = some ⟨.nextChunk, .settled (.ok (some chunk))⟩)
      (hbody : stream.inner.body = some body)
      (hchunks : peer.chunks = values ++ chunk :: body.chunks)
  /-- There is no chunk left. -/
  | spent (htask : stream.tasks[i]? = some ⟨.nextChunk, .settled (.ok none)⟩)
      (hchunks : peer.chunks = values)
  /-- The library failed. -/
  | failed (fault : LibraryFault)
      (htask : stream.tasks[i]? = some ⟨.nextChunk, .settled (.error (.library fault))⟩)
      (hchunks : values <+: peer.chunks)

/-- Where the chunks of the peer are, by where the generator stands. -/
def Holds (peer : StreamBody) (values : List Octets) (stream : MuxDuplexStream) :
    Phase (Point W) → Prop
  | .suspendedStart => ∃ body, stream.inner.body = some body ∧ peer.chunks = values ++ body.chunks
  | .suspendedYield => ∃ body, stream.inner.body = some body ∧ peer.chunks = values ++ body.chunks
  | .executing .calling =>
      ∃ body, stream.inner.body = some body ∧ peer.chunks = values ++ body.chunks
  | .executing (.awaiting i) => Awaited peer values stream i
  | .executing (.yielding chunk) =>
      ∃ body, stream.inner.body = some body ∧ peer.chunks = values ++ chunk :: body.chunks
  | .executing (.unwrapping _) => values <+: peer.chunks
  | .draining => values <+: peer.chunks
  | .completed => values <+: peer.chunks

/-- The promises of `nextChunk` the loop does not await are settled, none for an empty handle. -/
def Quiet (stream : MuxDuplexStream) (phase : Phase (Point W)) : Prop :=
  ∀ i t, stream.tasks[i]? = some t → t.call = .nextChunk →
    phase = .executing (.awaiting i) ∨
      ∃ outcome, t.phase = .settled outcome ∧ outcome ≠ .error streamClosed

/-- The invariant of a stream that is read. -/
structure Read (peer : StreamBody) (s : DuplexStream W E) : Prop where
  /-- The generator is sound. -/
  sound : s.body.Sound
  /-- The chunks are where they belong. -/
  holds : Holds peer s.body.values s.stream s.body.phase
  /-- No call overlaps another. -/
  quiet : Quiet s.stream s.body.phase
  /-- A body that ended on its own has given away all its chunks. -/
  all : s.body.ending = some .done → s.body.values = peer.chunks

variable {peer : StreamBody} {values : List Octets} {u v : MuxDuplexStream}

theorem Holds.initial {phase : Phase (Point W)} (h : Holds peer values u phase) :
    values <+: peer.chunks := by
  have hsplit {rest : List Octets} (h : peer.chunks = values ++ rest) : values <+: peer.chunks := by
    rw [h]
    exact List.prefix_append _ _
  cases phase with
  | suspendedStart => exact hsplit h.choose_spec.2
  | suspendedYield => exact hsplit h.choose_spec.2
  | draining => exact h
  | completed => exact h
  | executing point =>
    cases point with
    | calling => exact hsplit h.choose_spec.2
    | yielding chunk => exact hsplit h.choose_spec.2
    | unwrapping value => exact h
    | awaiting i =>
      cases h with
      | spawned body htask hbody hchunks => exact hsplit hchunks
      | reading body htask hchunks => exact hsplit hchunks
      | chunk body chunk htask hbody hchunks => exact hsplit hchunks
      | spent htask hchunks => rw [hchunks]
      | failed fault htask hchunks => exact hchunks

theorem holds_of_ended {phase : Phase (Point W)} (hphase : AsyncGenerator.Ended phase)
    (h : values <+: peer.chunks) : Holds peer values u phase := by
  cases phase with
  | draining => exact h
  | completed => exact h
  | suspendedStart => exact hphase.elim
  | suspendedYield => exact hphase.elim
  | executing point => exact hphase.elim

/-- Phases with nothing awaited of the handle agree on what is quiet. -/
theorem Quiet.change {phase : Phase (Point W)} (h : Quiet u phase)
    (hphase : ∀ i, phase ≠ .executing (.awaiting i)) (phase' : Phase (Point W)) :
    Quiet u phase' := fun i t htask hcall =>
  .inr ((h i t htask hcall).resolve_left (hphase i))

/-- The promise the loop awaited is settled. -/
theorem Quiet.settled {i : ℕ} {outcome : Settlement}
    (h : Quiet u (.executing (.awaiting i) : Phase (Point W)))
    (htask : u.tasks[i]? = some ⟨.nextChunk, .settled outcome⟩)
    (houtcome : outcome ≠ .error streamClosed) (phase' : Phase (Point W)) : Quiet u phase' := by
  intro j t hj hcall
  rcases h j t hj hcall with hphase | hsettled
  · cases hphase
    rw [htask] at hj
    cases hj
    exact .inr ⟨outcome, rfl, houtcome⟩
  · exact .inr hsettled

/-! ### Steps of the handle -/

/-- The sink moved, the body and its promises did not. -/
structure Apart (u v : MuxDuplexStream) : Prop where
  /-- The body is where it was. -/
  body : v.inner.body = u.inner.body
  /-- So are the promises of `nextChunk`. -/
  tasks : ∀ (i : ℕ) (t : DuplexTask), t.call = .nextChunk →
    (v.tasks[i]? = some t ↔ u.tasks[i]? = some t)

theorem Apart.awaited (h : Apart u v) {i : ℕ} (ha : Awaited peer values u i) :
    Awaited peer values v i := by
  cases ha with
  | spawned body htask hbody hchunks =>
    exact .spawned body ((h.tasks i _ rfl).2 htask) (h.body.trans hbody) hchunks
  | reading body htask hchunks => exact .reading body ((h.tasks i _ rfl).2 htask) hchunks
  | chunk body chunk htask hbody hchunks =>
    exact .chunk body chunk ((h.tasks i _ rfl).2 htask) (h.body.trans hbody) hchunks
  | spent htask hchunks => exact .spent ((h.tasks i _ rfl).2 htask) hchunks
  | failed fault htask hchunks => exact .failed fault ((h.tasks i _ rfl).2 htask) hchunks

theorem Apart.holds (h : Apart u v) {phase : Phase (Point W)} (hh : Holds peer values u phase) :
    Holds peer values v phase := by
  cases phase with
  | draining => exact hh
  | completed => exact hh
  | suspendedStart => exact ⟨_, h.body.trans hh.choose_spec.1, hh.choose_spec.2⟩
  | suspendedYield => exact ⟨_, h.body.trans hh.choose_spec.1, hh.choose_spec.2⟩
  | executing point =>
    cases point with
    | calling => exact ⟨_, h.body.trans hh.choose_spec.1, hh.choose_spec.2⟩
    | yielding chunk => exact ⟨_, h.body.trans hh.choose_spec.1, hh.choose_spec.2⟩
    | unwrapping value => exact hh
    | awaiting i => exact h.awaited hh

theorem Apart.quiet (h : Apart u v) {phase : Phase (Point W)} (hq : Quiet u phase) :
    Quiet v phase :=
  fun i t htask hcall => hq i t ((h.tasks i t hcall).1 htask) hcall

/-- A promise on the sink moves on. -/
theorem apart_set {i : ℕ} {c : SinkCall} {phase phase' : DuplexPhase}
    (htask : u.tasks[i]? = some ⟨.sink c, phase⟩) (hbody : v.inner.body = u.inner.body)
    (htasks : v.tasks = u.tasks.set i ⟨.sink c, phase'⟩) : Apart u v := by
  refine ⟨hbody, fun j t hcall => ?_⟩
  rw [htasks]
  by_cases hj : i = j
  · subst hj
    obtain ⟨hi, -⟩ := List.getElem?_eq_some_iff.1 htask
    rw [List.getElem?_set_self hi, htask]
    -- neither promise is one of `nextChunk`
    constructor
    · intro h
      cases h
      cases hcall
    · intro h
      cases h
      cases hcall
  · rw [List.getElem?_set_ne hj]

theorem apart_call (u : MuxDuplexStream) (c : SinkCall) :
    Apart u { u with tasks := u.tasks ++ [⟨.sink c, .spawned⟩] } := by
  refine ⟨rfl, fun j t hcall => ?_⟩
  dsimp only
  rw [List.getElem?_append]
  split
  · exact Iff.rfl
  · next hj =>
    rw [List.getElem?_eq_none (Nat.le_of_not_lt hj)]
    constructor
    · intro h
      rw [List.getElem?_singleton] at h
      split at h
      · cases h
        cases hcall
      · cases h
    · intro h
      cases h

theorem getElem?_become {i : ℕ} {old : DuplexTask} (htask : u.tasks[i]? = some old)
    (phase : DuplexPhase) : (u.become i .nextChunk phase).tasks[i]? = some ⟨.nextChunk, phase⟩ := by
  obtain ⟨hi, -⟩ := List.getElem?_eq_some_iff.1 htask
  exact List.getElem?_set_self hi

/-- The promise the loop awaits moves on. -/
theorem Quiet.become {i : ℕ} (h : Quiet u (.executing (.awaiting i) : Phase (Point W)))
    {phase : DuplexPhase} (htasks : v.tasks = u.tasks.set i ⟨.nextChunk, phase⟩) :
    Quiet v (.executing (.awaiting i) : Phase (Point W)) := by
  intro j t htask hcall
  by_cases hj : i = j
  · exact .inl (by rw [hj])
  · rw [htasks, List.getElem?_set_ne hj] at htask
    exact h j t htask hcall

/-- A promise of `nextChunk` that is not settled is the one the loop awaits. -/
theorem Quiet.awaited {phase : Phase (Point W)} (h : Quiet u phase) {i : ℕ} {t : DuplexTask}
    (htask : u.tasks[i]? = some t) (hcall : t.call = .nextChunk)
    (hrun : ∀ outcome, t.phase ≠ .settled outcome) : phase = .executing (.awaiting i) := by
  rcases h i t htask hcall with hphase | ⟨outcome, houtcome, -⟩
  · exact hphase
  · exact absurd houtcome (hrun outcome)

/-- **The handle moves**, unless the application would call `nextChunk`. -/
theorem holds_of_steps {phase : Phase (Point W)} {a : DuplexAction}
    (h : MuxDuplexStream.Steps u a v) (ha : a ≠ .call .nextChunk)
    (hh : Holds peer values u phase) (hq : Quiet u phase) :
    Holds peer values v phase ∧ Quiet v phase := by
  have hapart (hv : Apart u v) : Holds peer values v phase ∧ Quiet v phase :=
    ⟨hv.holds hh, hv.quiet hq⟩
  cases h with
  | called c =>
    cases c with
    | sink c => exact hapart (apart_call u c)
    | nextChunk => exact absurd rfl ha
  | refused i c htask hsink => exact hapart (apart_set htask rfl rfl)
  | took i c held htask hsink => exact hapart (apart_set htask rfl rfl)
  | restored i c held outcome htask hc => exact hapart (apart_set htask rfl rfl)
  | closed i c held outcome htask hc => exact hapart (apart_set htask rfl rfl)
  | bodyRefused i htask hbody =>
    -- while a promise waits to run, the body is in its cell
    cases hq.awaited htask rfl (fun outcome h => by cases h)
    cases hh with
    | spawned body _ hsome => rw [hbody] at hsome; cases hsome
    | reading body hother => rw [htask] at hother; cases hother
    | chunk body chunk hother => rw [htask] at hother; cases hother
    | spent hother => rw [htask] at hother; cases hother
    | failed fault hother => rw [htask] at hother; cases hother
  | bodyTook i held htask hbody =>
    cases hq.awaited htask rfl (fun outcome h => by cases h)
    refine ⟨?_, hq.become rfl⟩
    cases hh with
    | spawned body _ hsome hchunks =>
      rw [hbody] at hsome
      cases hsome
      exact .reading held (getElem?_become (by exact htask) _) hchunks
    | reading body hother => rw [htask] at hother; cases hother
    | chunk body chunk hother => rw [htask] at hother; cases hother
    | spent hother => rw [htask] at hother; cases hother
    | failed fault hother => rw [htask] at hother; cases hother
  | answered i held answer htask =>
    cases hq.awaited htask rfl (fun outcome h => by cases h)
    refine ⟨?_, hq.become rfl⟩
    have hdone := MuxDuplexStream.getElem?_chunkDone htask held answer
    cases hh with
    | spawned body hother => rw [htask] at hother; cases hother
    | chunk body chunk hother => rw [htask] at hother; cases hother
    | spent hother => rw [htask] at hother; cases hother
    | failed fault hother => rw [htask] at hother; cases hother
    | reading body hsame hchunks =>
      rw [htask] at hsame
      cases hsame
      cases answer with
      | failed lost fault => exact .failed fault hdone (hchunks ▸ List.prefix_append _ _)
      | next =>
        cases hrest : held.chunks with
        | nil =>
          refine .spent ?_ (by rw [hchunks, hrest, List.append_nil])
          simpa [StreamBody.chunk, hrest, Except.mapError] using hdone
        | cons chunk rest =>
          refine .chunk ⟨rest⟩ chunk ?_ ?_ (by rw [hchunks, hrest])
          · simpa [StreamBody.chunk, hrest, Except.mapError] using hdone
          · simp [MuxDuplexStream.chunkDone, MuxDuplexStream.become, StreamBody.chunk, hrest]

/-! ### Steps of the reader -/

variable {s : DuplexStream W E}

/-- The loop ends while a request waits. -/
theorem Read.finish (h : Read peer s) {point : Point W} (hphase : s.body.phase = .executing point)
    (hquiet : ∀ phase : Phase (Point W), Quiet s.stream phase) (ending : Ending W (Thrown E))
    (hall : ending = .done → s.body.values = peer.chunks) :
    Read peer { s with body := s.body.finish ending } := by
  have hqueue : s.body.queue ≠ [] := by
    have hwaits := h.sound.waits
    rwa [hphase] at hwaits
  have hvalues := AsyncGenerator.values_finish ending hqueue
  have hending := AsyncGenerator.ending_finish ending hqueue
    (h.sound.ending_eq_none (by rw [hphase]; exact id))
  refine ⟨h.sound.ended hphase ending, ?_, hquiet _, fun hdone => ?_⟩
  · exact holds_of_ended (AsyncGenerator.ended_finish _ _) (hvalues ▸ h.holds.initial)
  · dsimp only at hdone ⊢
    rw [hending, Option.some.injEq] at hdone
    rw [hvalues]
    refine hall ?_
    cases ending with
    | done => rfl
    | returned value => cases hdone
    | thrown error => cases hdone

/-- The loop runs to the await of `nextChunk`. -/
theorem Read.run (h : Read peer s) : Read peer s.run := by
  unfold DuplexStream.run
  split
  · next hphase =>
    have hholds := h.holds
    have hquiet := h.quiet
    rw [hphase] at hholds hquiet
    obtain ⟨body, hbody, hchunks⟩ := hholds
    refine ⟨h.sound.move hphase _, ?_, ?_, h.all⟩
    · refine .spawned body ?_ hbody hchunks
      dsimp only
      rw [List.getElem?_append_right (Nat.le_refl _), Nat.sub_self]
      rfl
    · intro j t htask hcall
      dsimp only at htask
      rw [List.getElem?_append] at htask
      split at htask
      · exact .inr ((hquiet j t htask hcall).resolve_left fun hne => by cases hne)
      · next hj =>
        -- the new promise is the awaited one
        rw [List.getElem?_singleton] at htask
        split at htask
        · next hzero =>
          left
          rw [show j = s.stream.tasks.length by omega]
          rfl
        · cases htask
  · exact h

/-- What the loop is resumed with while a request waits, all chunks drawn answered. -/
theorem Read.resumed {g : BodyChunks W E} {body : StreamBody} (hqueue : g.queue ≠ [])
    (hsound : ∀ next, (g.resumed next).Sound) (hending : g.ending = none)
    (hbody : u.inner.body = some body) (hchunks : peer.chunks = g.values ++ body.chunks)
    (hquiet : ∀ phase : Phase (Point W), Quiet u phase)
    (c : Option (Completion W (Thrown E))) :
    Read peer ⟨u, g.resumed (BodyChunks.resume c)⟩ := by
  have hopen (point : Point W) : (g.move point).ending = none := hending
  have hgoes (point : Point W) (hholds : Holds peer g.values u (.executing point)) :
      Read peer ⟨u, g.resumed (.ok point)⟩ := by
    refine ⟨hsound (.ok point), hholds, hquiet _, fun hdone => ?_⟩
    rw [show (DuplexStream.body ⟨u, g.resumed (.ok point)⟩).ending = none from hopen point] at hdone
    cases hdone
  have hinitial : g.values <+: peer.chunks := hchunks ▸ List.prefix_append _ _
  cases c with
  | none => exact hgoes .calling ⟨body, hbody, hchunks⟩
  | some c =>
    cases c with
    | next => exact hgoes .calling ⟨body, hbody, hchunks⟩
    | ret value => exact hgoes (.unwrapping value) hinitial
    | throw error =>
      refine ⟨hsound (.error (.thrown error)), ?_, hquiet _, fun hdone => ?_⟩
      · refine holds_of_ended (AsyncGenerator.ended_finish _ _) ?_
        exact (AsyncGenerator.values_finish _ hqueue).symm ▸ hinitial
      · have hthrown := AsyncGenerator.ending_finish (.thrown error) hqueue hending
        have hsome : (g.finish (.thrown error)).ending = some .done := hdone
        rw [hthrown] at hsome
        cases hsome

/-- **The application asks** for a chunk, or breaks off. -/
theorem Read.request (h : Read peer s) (c : Completion W (Thrown E)) :
    Read peer { s with body := s.body.request BodyChunks.resume c } := by
  have hsound := h.sound.request BodyChunks.resume c
  have hholds := h.holds
  have hquiet := h.quiet
  have horder := h.sound.order
  have hfront := h.sound.front
  -- a suspended body goes on at once
  have hresume (hphase : s.body.phase = .suspendedStart ∨ s.body.phase = .suspendedYield)
      (c' : Option (Completion W (Thrown E))) :
      Read peer ⟨s.stream, (s.body.enqueue c).resumed (BodyChunks.resume c')⟩ := by
    obtain ⟨body, hbody, hchunks⟩ : ∃ body, s.stream.inner.body = some body ∧
        peer.chunks = s.body.values ++ body.chunks := by
      rcases hphase with hphase | hphase
      · rwa [hphase] at hholds
      · rwa [hphase] at hholds
    have hopen : ¬ AsyncGenerator.Ended s.body.phase := by
      rcases hphase with hphase | hphase
      · rw [hphase]; exact id
      · rw [hphase]; exact id
    refine .resumed (AsyncGenerator.enqueue_ne_nil s.body c) (fun next => ?_)
      (h.sound.ending_eq_none hopen) hbody hchunks (hquiet.change fun i hne => ?_) c'
    · exact .resumed (horder.enqueue c) (AsyncGenerator.enqueue_ne_nil s.body c)
        (hfront.mono fun hended => hopen hended) next
    · rcases hphase with hphase | hphase
      · rw [hphase] at hne; cases hne
      · rw [hphase] at hne; cases hne
  cases hphase : s.body.phase with
  | suspendedYield =>
    have heq : s.body.request BodyChunks.resume c =
        (s.body.enqueue c).resumed (BodyChunks.resume (some c)) := by
      simp only [AsyncGenerator.request, hphase]
    rw [heq]
    exact hresume (.inr hphase) _
  | executing point =>
    have heq : s.body.request BodyChunks.resume c = s.body.enqueue c := by
      simp only [AsyncGenerator.request, hphase]
    rw [heq] at hsound ⊢
    exact ⟨hsound, hholds, hquiet, h.all⟩
  | draining =>
    have heq : s.body.request BodyChunks.resume c = s.body.enqueue c := by
      simp only [AsyncGenerator.request, hphase]
    rw [heq] at hsound ⊢
    exact ⟨hsound, hholds, hquiet, h.all⟩
  | suspendedStart =>
    have hchange := hquiet.change fun i hne => by rw [hphase] at hne; cases hne
    have hnone := h.sound.ending_eq_none (by rw [hphase]; exact id)
    cases c with
    | next =>
      have heq : s.body.request BodyChunks.resume .next =
          (s.body.enqueue .next).resumed (BodyChunks.resume none) := by
        simp only [AsyncGenerator.request, hphase]
      rw [heq]
      exact hresume (.inl hphase) _
    | ret value =>
      have heq : s.body.request BodyChunks.resume (.ret value) =
          { s.body.enqueue (.ret value) with phase := .draining } := by
        simp only [AsyncGenerator.request, hphase]
      rw [heq] at hsound ⊢
      exact ⟨hsound, hholds.initial, hchange _, h.all⟩
    | throw error =>
      have heq : s.body.request BodyChunks.resume (.throw error) =
          { s.body.settle (.thrown error) with phase := .completed } := by
        simp only [AsyncGenerator.request, hphase]
      rw [heq] at hsound ⊢
      have hvalue := AsyncGenerator.not_isValue_of_ending (V := Octets) (W := W) (.thrown error)
      refine ⟨hsound, ?_, hchange _, fun hdone => ?_⟩
      · exact (AsyncGenerator.values_settle s.body hvalue).symm ▸ hholds.initial
      · have hthrown : (s.body.settle (.thrown error)).ending = some (.thrown error) :=
          AsyncGenerator.ending_of_cons rfl hvalue hnone
        have hsome : (s.body.settle (.thrown error)).ending = some .done := hdone
        rw [hthrown] at hsome
        cases hsome
  | completed =>
    have hchange := hquiet.change fun i hne => by rw [hphase] at hne; cases hne
    have htold := h.sound.told hphase
    -- whatever is answered now, the body ended before
    have hsettle {a : Answer Octets W (Thrown E)} (ha : ¬ a.IsValue)
        (heq : s.body.request BodyChunks.resume c = s.body.settle a) :
        Read peer { s with body := s.body.request BodyChunks.resume c } := by
      rw [heq] at hsound ⊢
      have hvalues := AsyncGenerator.values_settle s.body ha
      have hending : (s.body.settle a).ending = s.body.ending :=
        AsyncGenerator.ending_of_append rfl htold
      refine ⟨hsound, ?_, hchange _, fun hdone => ?_⟩
      · exact holds_of_ended (by exact hphase ▸ trivial) (hvalues.symm ▸ hholds.initial)
      · exact hvalues.trans (h.all (hending.symm.trans hdone))
    cases c with
    | next =>
      refine hsettle (AsyncGenerator.not_isValue_of_ending .done) ?_
      simp only [AsyncGenerator.request, hphase, Ending.answer]
    | throw error =>
      refine hsettle (AsyncGenerator.not_isValue_of_ending (.thrown error)) ?_
      simp only [AsyncGenerator.request, hphase, Ending.answer]
    | ret value =>
      have heq : s.body.request BodyChunks.resume (.ret value) =
          { s.body.enqueue (.ret value) with phase := .draining } := by
        simp only [AsyncGenerator.request, hphase]
      rw [heq] at hsound ⊢
      exact ⟨hsound, hholds.initial, hchange _, h.all⟩

/-- **The loop yields** its chunk. -/
theorem Read.yield (h : Read peer s) {chunk : Octets}
    (hphase : s.body.phase = .executing (.yielding chunk)) :
    Read peer { s with body := s.body.yield BodyChunks.resume chunk } := by
  have hsound := h.sound.yield hphase BodyChunks.resume chunk
  have hholds := h.holds
  have hwaits := h.sound.waits
  rw [hphase] at hholds hwaits
  obtain ⟨body, hbody, hchunks⟩ := hholds
  have hvalues := AsyncGenerator.values_completeStep (g := s.body) hwaits chunk
  have hending := AsyncGenerator.ending_completeStep (g := s.body) chunk
    (h.sound.ending_eq_none (by rw [hphase]; exact id))
  have hsplit : peer.chunks = (s.body.completeStep (.value chunk)).values ++ body.chunks := by
    rw [hvalues, hchunks, List.append_assoc]
    rfl
  have hchange := h.quiet.change fun i hne => by rw [hphase] at hne; cases hne
  cases hqueue : (s.body.completeStep (.value chunk)).queue with
  | nil =>
    have heq : s.body.yield BodyChunks.resume chunk =
        { s.body.completeStep (.value chunk) with phase := .suspendedYield } := by
      simp only [AsyncGenerator.yield, hqueue]
    rw [heq] at hsound ⊢
    refine ⟨hsound, ⟨body, hbody, hsplit⟩, hchange _, fun hdone => ?_⟩
    have hsome : (s.body.completeStep (.value chunk)).ending = some .done := hdone
    rw [hending] at hsome
    cases hsome
  | cons r rest =>
    obtain ⟨i, c⟩ := r
    have heq : s.body.yield BodyChunks.resume chunk =
        (s.body.completeStep (.value chunk)).resumed (BodyChunks.resume (some c)) := by
      simp only [AsyncGenerator.yield, hqueue]
    rw [heq]
    have hne : (s.body.completeStep (.value chunk)).queue ≠ [] := by
      rw [hqueue]
      exact List.cons_ne_nil _ _
    have hfront : AsyncGenerator.ValuesFirst False (s.body.completeStep (.value chunk)).answers :=
      ⟨_, [], (List.append_nil _).symm, AsyncGenerator.ending_eq_none_iff.1 hending,
        fun _ ha => absurd ha List.not_mem_nil, fun _ => rfl⟩
    exact .resumed hne (fun next => .resumed (h.sound.order.completeStep _) hne hfront next) hending
      hbody hsplit hchange _

/-- **The loop goes on** after `nextChunk`. -/
theorem Read.received (h : Read peer s) {i : ℕ} {c : DuplexCall} {outcome : Settlement}
    (hphase : s.body.phase = .executing (.awaiting i))
    (htask : s.stream.tasks[i]? = some ⟨c, .settled outcome⟩) :
    Read peer { s with body := s.body.received outcome } := by
  have hholds := h.holds
  have hquiet := h.quiet
  rw [hphase] at hholds hquiet
  cases hholds with
  | spawned body hother => rw [htask] at hother; cases hother
  | reading body hother => rw [htask] at hother; cases hother
  | chunk body chunk hsame hbody hchunks =>
    rw [htask] at hsame
    cases hsame
    refine ⟨h.sound.move hphase _, ⟨body, hbody, hchunks⟩, ?_, h.all⟩
    exact hquiet.settled htask (by simp) _
  | spent hsame hchunks =>
    rw [htask] at hsame
    cases hsame
    exact h.finish hphase (hquiet.settled htask (by simp)) .done fun _ => hchunks.symm
  | failed fault hsame hchunks =>
    rw [htask] at hsame
    cases hsame
    refine h.finish hphase (hquiet.settled htask (by simp [streamClosed])) (.thrown _) fun hdone => ?_
    cases hdone

/-- The value of a `return` at the `yield` settles. -/
theorem Read.unwrapped (h : Read peer s) {value : W}
    (hphase : s.body.phase = .executing (.unwrapping value)) (outcome : Except (Thrown E) W) :
    Read peer { s with body := s.body.unwrapped outcome } := by
  have hchange := h.quiet.change fun i hne => by rw [hphase] at hne; cases hne
  exact h.finish hphase hchange _ fun hdone => absurd hdone (AsyncGenerator.ofReturn_ne_done outcome)

/-- The value of a `return` settles that found no loop to leave. -/
theorem Read.returned (h : Read peer s) (hphase : s.body.phase = .draining)
    (outcome : Except (Thrown E) W) : Read peer { s with body := s.body.returned outcome } := by
  have hsound := h.sound.returned hphase outcome
  have hqueue : s.body.queue ≠ [] := by
    have hwaits := h.sound.waits
    rw [hphase] at hwaits
    obtain ⟨i, value, rest, hcons⟩ := hwaits
    rw [hcons]
    exact List.cons_ne_nil _ _
  have hchange := h.quiet.change fun i hne => by rw [hphase] at hne; cases hne
  have hvalues : (s.body.returned outcome).values = s.body.values :=
    AsyncGenerator.values_finish _ hqueue
  refine ⟨hsound, ?_, hchange _, fun hdone => ?_⟩
  · exact holds_of_ended (AsyncGenerator.ended_finish _ _) (hvalues.symm ▸ h.holds.initial)
  · have hsome : (s.body.finish (.ofReturn outcome)).ending = some .done := hdone
    refine hvalues.trans ?_
    by_cases hnone : s.body.ending = none
    · -- the front request is a `return`, which is told no end
      rw [AsyncGenerator.ending_finish _ hqueue hnone, Option.some.injEq] at hsome
      cases outcome with
      | ok value => cases hsome
      | error error => cases hsome
    · obtain ⟨⟨i, c⟩, rest, hcons⟩ := List.exists_cons_of_ne_nil hqueue
      rw [AsyncGenerator.ending_of_append (AsyncGenerator.answers_finish hcons _) hnone] at hsome
      exact h.all hsome

theorem Read.handle (h : Read peer s) {s' : DuplexStream W E} {a : DuplexAction}
    (ha : a ≠ .call .nextChunk) (hstep : s.handle a = some s') : Read peer s' := by
  unfold DuplexStream.handle at hstep
  obtain ⟨stream, hstream, rfl⟩ := Option.map_eq_some_iff.1 hstep
  obtain ⟨hholds, hquiet⟩ :=
    holds_of_steps (MuxDuplexStream.steps_of_step hstream) ha h.holds h.quiet
  exact ⟨h.sound, hholds, hquiet, h.all⟩

/-- **Every step keeps the invariant.** -/
theorem Read.step (h : Read peer s) {s' : DuplexStream W E} {a : DuplexStreamAction W E}
    (hstep : s.step a = some s') : Read peer s' := by
  cases a with
  | sink c => exact h.handle (fun hne => by cases hne) hstep
  | start i => exact h.handle (fun hne => by cases hne) hstep
  | sinkDone i outcome => exact h.handle (fun hne => by cases hne) hstep
  | chunkDone i answer => exact h.handle (fun hne => by cases hne) hstep
  | request c =>
    cases hstep
    exact (h.request c).run
  | received =>
    unfold DuplexStream.step at hstep
    dsimp only at hstep
    split at hstep
    · next i hphase =>
      split at hstep
      · next htask =>
        cases hstep
        exact h.received hphase htask
      · cases hstep
    · cases hstep
  | yielded =>
    unfold DuplexStream.step at hstep
    dsimp only at hstep
    split at hstep
    · next chunk hphase =>
      cases hstep
      exact (h.yield hphase).run
    · cases hstep
  | unwrapped outcome =>
    unfold DuplexStream.step at hstep
    dsimp only at hstep
    split at hstep
    · next value hphase =>
      cases hstep
      exact h.unwrapped hphase outcome
    · cases hstep
  | returned outcome =>
    unfold DuplexStream.step at hstep
    dsimp only at hstep
    split at hstep
    · next hphase =>
      cases hstep
      exact h.returned hphase outcome
    · cases hstep

theorem read_wrap (sink : Option RequestSink) (peer : StreamBody) :
    Read peer (wrap sink peer : DuplexStream W E) := by
  refine ⟨AsyncGenerator.sound_start, ⟨peer, rfl, rfl⟩, ?_, fun hdone => by cases hdone⟩
  intro i t htask
  cases htask

theorem read_of_reachable {sink : Option RequestSink}
    (h : Reachable step (wrap sink peer) s) : Read peer s :=
  h.invariant (read_wrap sink peer) fun _ _ _ _ h _ hstep => h.step hstep

/-! ### What the application sees -/

/-- The steps the application does not take. -/
def Inner : DuplexStreamAction W E → Prop
  | .sink _ => False
  | .request _ => False
  | _ => True

/-- A request that waits is on its way: some step that is not the application's can be taken. -/
theorem Read.moves (h : Read peer s) (hrun : s.body.phase ≠ .executing .calling)
    (hqueue : s.body.queue ≠ []) : ∃ a s', Inner a ∧ s.step a = some s' := by
  have hholds := h.holds
  have hwaits := h.sound.waits
  have hstep {a : DuplexStreamAction W E} (ha : Inner a) (hsome : (s.step a).isSome) :
      ∃ a s', Inner a ∧ s.step a = some s' := by
    obtain ⟨s', hs'⟩ := Option.isSome_iff_exists.1 hsome
    exact ⟨a, s', ha, hs'⟩
  cases hphase : s.body.phase with
  | suspendedStart => rw [hphase] at hwaits; exact absurd hwaits hqueue
  | suspendedYield => rw [hphase] at hwaits; exact absurd hwaits hqueue
  | completed => rw [hphase] at hwaits; exact absurd hwaits hqueue
  | draining =>
    rw [hphase] at hwaits
    obtain ⟨i, value, rest, -⟩ := hwaits
    refine hstep (a := .returned (.ok value)) trivial ?_
    simp [DuplexStream.step, hphase]
  | executing point =>
    rw [hphase] at hholds
    cases point with
    | calling => exact absurd hphase hrun
    | yielding chunk =>
      refine hstep (a := .yielded) trivial ?_
      simp [DuplexStream.step, hphase]
    | unwrapping value =>
      refine hstep (a := .unwrapped (.ok value)) trivial ?_
      simp [DuplexStream.step, hphase]
    | awaiting i =>
      cases hholds with
      | spawned body htask hbody hchunks =>
        refine hstep (a := .start i) trivial ?_
        simp [DuplexStream.step, DuplexStream.handle, MuxDuplexStream.step, htask]
      | reading body htask hchunks =>
        refine hstep (a := .chunkDone i .next) trivial ?_
        simp [DuplexStream.step, DuplexStream.handle, MuxDuplexStream.step, htask]
      | chunk body chunk htask hbody hchunks =>
        refine hstep (a := .received) trivial ?_
        simp [DuplexStream.step, hphase, htask]
      | spent htask hchunks =>
        refine hstep (a := .received) trivial ?_
        simp [DuplexStream.step, hphase, htask]
      | failed fault htask hchunks =>
        refine hstep (a := .received) trivial ?_
        simp [DuplexStream.step, hphase, htask]

theorem not_calling_run (s : DuplexStream W E) : s.run.body.phase ≠ .executing .calling := by
  unfold DuplexStream.run
  split
  · intro h
    cases h
  · next hphase => exact hphase

theorem not_calling_finish (g : BodyChunks W E) (ending : Ending W (Thrown E)) :
    (g.finish ending).phase ≠ .executing .calling := by
  intro h
  have hended := AsyncGenerator.ended_finish g ending
  rw [h] at hended
  exact hended

/-- The loop never rests before its call. -/
theorem not_calling_of_reachable {sink : Option RequestSink}
    (h : Reachable step (wrap sink peer) s) : s.body.phase ≠ .executing .calling := by
  refine h.invariant (I := fun s => s.body.phase ≠ .executing .calling) (fun h => by cases h) ?_
  intro s a s' _ hs _ hstep
  have hhandle {a : DuplexAction} (hstep : s.handle a = some s') :
      s'.body.phase ≠ .executing .calling := by
    obtain ⟨stream, -, rfl⟩ := Option.map_eq_some_iff.1 hstep
    exact hs
  cases a with
  | sink c => exact hhandle hstep
  | start i => exact hhandle hstep
  | sinkDone i outcome => exact hhandle hstep
  | chunkDone i answer => exact hhandle hstep
  | request c =>
    cases hstep
    exact not_calling_run _
  | received =>
    unfold DuplexStream.step at hstep
    dsimp only at hstep
    split at hstep
    · split at hstep
      · next outcome htask =>
        cases hstep
        match outcome with
        | .ok (some chunk) => intro h; cases h
        | .ok none => exact not_calling_finish _ _
        | .error fault => exact not_calling_finish _ _
      · cases hstep
    · cases hstep
  | yielded =>
    unfold DuplexStream.step at hstep
    dsimp only at hstep
    split at hstep
    · cases hstep
      exact not_calling_run _
    · cases hstep
  | unwrapped outcome =>
    unfold DuplexStream.step at hstep
    dsimp only at hstep
    split at hstep
    · cases hstep
      exact not_calling_finish _ _
    · cases hstep
  | returned outcome =>
    unfold DuplexStream.step at hstep
    dsimp only at hstep
    split at hstep
    · cases hstep
      exact not_calling_finish _ _
    · cases hstep

/-- A run of the stream is one of the handle. -/
theorem stream_of_reachable {sink : Option RequestSink} (h : Reachable step (wrap sink peer) s) :
    ∃ moves, Trace MuxDuplexStream.step ⟨⟨sink, some peer⟩, [], []⟩ moves s.stream := by
  refine h.invariant (I := fun s : DuplexStream W E =>
    ∃ moves, Trace MuxDuplexStream.step ⟨⟨sink, some peer⟩, [], []⟩ moves s.stream) ⟨[], .nil⟩ ?_
  rintro s a s' _ ⟨moves, htrace⟩ _ hstep
  have hhandle {a : DuplexAction} (hstep : s.handle a = some s') :
      ∃ moves, Trace MuxDuplexStream.step ⟨⟨sink, some peer⟩, [], []⟩ moves s'.stream := by
    obtain ⟨stream, hstream, rfl⟩ := Option.map_eq_some_iff.1 hstep
    exact ⟨_, htrace.snoc hstream⟩
  have hrun (g : BodyChunks W E) : ∃ moves, Trace MuxDuplexStream.step ⟨⟨sink, some peer⟩, [], []⟩
      moves (DuplexStream.mk s.stream g).run.stream := by
    unfold DuplexStream.run
    split
    · exact ⟨_, htrace.snoc (a := .call .nextChunk) rfl⟩
    · exact ⟨moves, htrace⟩
  cases a with
  | sink c => exact hhandle hstep
  | start i => exact hhandle hstep
  | sinkDone i outcome => exact hhandle hstep
  | chunkDone i answer => exact hhandle hstep
  | request c =>
    cases hstep
    exact hrun _
  | received =>
    unfold DuplexStream.step at hstep
    dsimp only at hstep
    split at hstep
    · split at hstep
      · cases hstep
        exact ⟨moves, htrace⟩
      · cases hstep
    · cases hstep
  | yielded =>
    unfold DuplexStream.step at hstep
    dsimp only at hstep
    split at hstep
    · cases hstep
      exact hrun _
    · cases hstep
  | unwrapped outcome =>
    unfold DuplexStream.step at hstep
    dsimp only at hstep
    split at hstep
    · cases hstep
      exact ⟨moves, htrace⟩
    · cases hstep
  | returned outcome =>
    unfold DuplexStream.step at hstep
    dsimp only at hstep
    split at hstep
    · cases hstep
      exact ⟨moves, htrace⟩
    · cases hstep

/-- **The generator hands the body on faithfully.** -/
structure Faithful (peer : StreamBody) (s : DuplexStream W E) : Prop where
  /-- The `k`-th answer is for the `k`-th request. -/
  order : s.body.answers.map Prod.fst = List.range s.body.answers.length
  /-- Once a request was answered without a chunk, so is every later one. -/
  first : ∃ front back, s.body.answers = front ++ back ∧ (∀ a ∈ front, a.2.IsValue) ∧
    ∀ a ∈ back, ¬ a.2.IsValue
  /-- The chunks are those of the peer, each once and in order, with none left out. -/
  chunks : s.body.values <+: peer.chunks
  /-- A reader that is told the end, having neither broken off nor failed, has got all of them. -/
  all : s.body.ending = some .done → s.body.values = peer.chunks
  /-- No `nextChunk` finds the handle empty. -/
  accepted : ∀ (i : ℕ) (t : DuplexTask), s.stream.tasks[i]? = some t → t.call = .nextChunk →
    t.phase ≠ .settled (.error streamClosed)
  /-- No two calls of `nextChunk` overlap. -/
  single : ∀ (i j : ℕ) (t u : DuplexTask), s.stream.tasks[i]? = some t →
    s.stream.tasks[j]? = some u → t.call = .nextChunk → u.call = .nextChunk →
    (∀ outcome, t.phase ≠ .settled outcome) → (∀ outcome, u.phase ≠ .settled outcome) → i = j
  /-- A request that waits is not stuck. -/
  moves : s.body.queue ≠ [] → ∃ a s', Inner a ∧ s.step a = some s'

theorem faithful_of_reachable {sink : Option RequestSink}
    (h : Reachable step (wrap sink peer) s) : Faithful peer s := by
  have hread := read_of_reachable h
  obtain ⟨front, back, hanswers, hfront, hback, -⟩ := hread.sound.front
  refine ⟨hread.sound.in_order, ⟨front, back, hanswers, hfront, hback⟩, hread.holds.initial,
    hread.all, ?_, ?_, hread.moves (not_calling_of_reachable h)⟩
  · intro i t htask hcall hphase
    rcases hread.quiet i t htask hcall with hawaited | ⟨outcome, houtcome, hne⟩
    · have hholds := hread.holds
      rw [hawaited] at hholds
      obtain ⟨c, phase⟩ := t
      cases hphase
      cases hholds with
      | spawned body hother => rw [htask] at hother; cases hother
      | reading body hother => rw [htask] at hother; cases hother
      | chunk body chunk hother => rw [htask] at hother; cases hother
      | spent hother => rw [htask] at hother; cases hother
      | failed fault hother => rw [htask, streamClosed] at hother; cases hother
    · rw [hphase] at houtcome
      cases houtcome
      exact hne rfl
  · intro i j t u hi hj hcall hcall' hrun hrun'
    have hsame := (hread.quiet.awaited hi hcall hrun).symm.trans (hread.quiet.awaited hj hcall' hrun')
    cases hsame
    rfl

end DuplexStream

/-- **Readers of a body get the chunks of the peer**, whatever overlaps: on a duplex stream, whose
sink stays exclusive meanwhile, and on the body of a served stream. -/
theorem bodyChunks_faithful {W E : Type} (peer : StreamBody) :
    (∀ s : DuplexStream W E, Reachable DuplexStream.step (.wrap (some ⟨[]⟩) peer) s →
      s.Faithful peer ∧ ∃ moves, Trace MuxDuplexStream.step (.fromParts ⟨[]⟩ peer) moves s.stream ∧
        MuxDuplexStream.view.Exclusive moves s.stream) ∧
    ∀ s : DuplexStream W E, Reachable DuplexStream.step (.wrap none peer) s → s.Faithful peer := by
  refine ⟨fun s h => ⟨DuplexStream.faithful_of_reachable h, ?_⟩,
    fun s h => DuplexStream.faithful_of_reachable h⟩
  obtain ⟨moves, htrace⟩ := DuplexStream.stream_of_reachable h
  exact ⟨moves, htrace, MuxDuplexStream.exclusive htrace⟩

namespace Small

/-- Three requests at once get two chunks and the end, on either kind of stream. -/
theorem overlapping_requests :
    (∃ s : DuplexStream Unit Unit, s.Faithful ⟨[[1], [2]]⟩ ∧
      s.body.answers = [(0, .value [1]), (1, .value [2]), (2, .done)]) ∧
    ∃ s : DuplexStream Unit Unit, s.Faithful ⟨[[1]]⟩ ∧
      s.body.answers = [(0, .value [1]), (1, .returned ())] := by
  constructor
  · have hreach := (@Reaches.start _ _ (@DuplexStream.step Unit Unit) (fun _ _ => True)
      (.wrap (some ⟨[]⟩) ⟨[[1], [2]]⟩))
      |>.next (a := .request .next) trivial rfl |>.next (a := .request .next) trivial rfl
      |>.next (a := .request .next) trivial rfl
      |>.next (a := .start 0) trivial rfl |>.next (a := .chunkDone 0 .next) trivial rfl
      |>.next (a := .received) trivial rfl |>.next (a := .yielded) trivial rfl
      |>.next (a := .start 1) trivial rfl |>.next (a := .chunkDone 1 .next) trivial rfl
      |>.next (a := .received) trivial rfl |>.next (a := .yielded) trivial rfl
      |>.next (a := .start 2) trivial rfl |>.next (a := .chunkDone 2 .next) trivial rfl
      |>.next (a := .received) trivial rfl
    exact ⟨_, ((bodyChunks_faithful _).1 _ hreach).1, rfl⟩
  · have hreach := (@Reaches.start _ _ (@DuplexStream.step Unit Unit) (fun _ _ => True)
      (.wrap none ⟨[[1]]⟩))
      |>.next (a := .request .next) trivial rfl |>.next (a := .request (.ret ())) trivial rfl
      |>.next (a := .start 0) trivial rfl |>.next (a := .chunkDone 0 .next) trivial rfl
      |>.next (a := .received) trivial rfl |>.next (a := .yielded) trivial rfl
      |>.next (a := .unwrapped (.ok ())) trivial rfl
    exact ⟨_, (bodyChunks_faithful _).2 _ hreach, rfl⟩

end Small

end Ws
end TightbeamExt
