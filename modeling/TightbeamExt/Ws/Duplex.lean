import TightbeamExt.Ws.Streaming

/-!
# The streaming duplex handle

A duplex handle has two cells, one for the sink and one for the body of the reply.  `nextChunk`
takes the body out, awaits a chunk and puts it back, whatever the outcome; it never touches the
sink, nor do the calls on the sink touch the body.  The library's body is sequential: it yields the
chunks of the peer one after the other, and a call that fails may lose some.

## Main definitions

* `MuxDuplexStream`, `MuxDuplexStream.step` — the duplex handle, and a step of one promise.
* `MuxDuplexStream.chunks` — what `nextChunk` returned over a run.

## Main results

* `MuxDuplexStream.chunks_in_order` — chunks are returned once, and in order.
* `streaming_handles` — **streaming handles are exclusive and ordered.**
-/

namespace TightbeamExt
namespace Ws

open Asn (Octets)
open Transition Lease

/-- `StreamBody`: the chunks the peer still sends. -/
structure StreamBody where
  /-- The chunks, the next one first. -/
  chunks : List Octets
  deriving DecidableEq, Repr

/-- How `chunk` returns. -/
inductive BodyAnswer
  /-- With the next chunk, or with the end of the body. -/
  | next
  /-- It fails, and loses this many chunks. -/
  | failed (lost : ℕ) (fault : LibraryFault)
  deriving DecidableEq, Repr

/-- `chunk`. -/
def StreamBody.chunk (body : StreamBody) :
    BodyAnswer → Except LibraryFault (Option Octets) × StreamBody
  | .next => (.ok body.chunks.head?, ⟨body.chunks.tail⟩)
  | .failed lost fault => (.error fault, ⟨body.chunks.drop lost⟩)

/-- `DuplexInner`. -/
structure DuplexInner where
  /-- The sink. -/
  sink : Option RequestSink
  /-- The body of the reply. -/
  body : Option StreamBody

/-- A call on the duplex handle. -/
inductive DuplexCall
  /-- `push`, `close` or `closeWith`. -/
  | sink (c : SinkCall)
  /-- `nextChunk`. -/
  | nextChunk
  deriving DecidableEq, Repr

/-- Where a promise of the duplex handle stands. -/
inductive DuplexPhase
  /-- Its body has not run yet. -/
  | spawned
  /-- It awaits the call on the sink, which it holds. -/
  | calling (held : RequestSink)
  /-- It awaits a chunk of the body, which it holds. -/
  | reading (held : StreamBody)
  /-- It is settled. -/
  | settled (outcome : Settlement)

/-- A promise of the duplex handle. -/
structure DuplexTask where
  /-- The call. -/
  call : DuplexCall
  /-- Where it stands. -/
  phase : DuplexPhase

namespace DuplexTask

/-- What a promise holds of the sink, and for which call. -/
def heldSink (t : DuplexTask) : Option (SinkCall × RequestSink) :=
  match t.phase, t.call with
  | .calling held, .sink c => some (c, held)
  | _, _ => none

/-- What a promise holds of the body. -/
def heldBody (t : DuplexTask) : Option (Unit × StreamBody) :=
  match t.phase with
  | .reading held => some ((), held)
  | _ => none

/-- Where a promise stands, as the application sees it. -/
def progress (t : DuplexTask) : Progress :=
  match t.phase with
  | .spawned => .spawned
  | .calling _ | .reading _ => .running
  | .settled outcome => .settled outcome

end DuplexTask

/-- A duplex handle with its promises. -/
structure MuxDuplexStream where
  /-- The shared cell. -/
  inner : DuplexInner
  /-- The promises, in the order of the calls. -/
  tasks : List DuplexTask
  /-- Sinks that closing handed to the library. -/
  closed : List RequestSink

/-- One step of the duplex handle. -/
inductive DuplexAction
  /-- The application calls. -/
  | call (c : DuplexCall)
  /-- The body of a promise runs to its await. -/
  | start (i : ℕ)
  /-- The call on the sink returns. -/
  | sinkDone (i : ℕ) (outcome : Except LibraryFault Unit)
  /-- The call on the body returns. -/
  | chunkDone (i : ℕ) (answer : BodyAnswer)

namespace MuxDuplexStream

/-- `from_parts`: a new stream. -/
def fromParts (sink : RequestSink) (body : StreamBody) : MuxDuplexStream :=
  ⟨⟨some sink, some body⟩, [], []⟩

/-- A promise moves on. -/
def become (s : MuxDuplexStream) (i : ℕ) (c : DuplexCall) (phase : DuplexPhase) :
    MuxDuplexStream :=
  { s with tasks := s.tasks.set i ⟨c, phase⟩ }

/-- `push`, `close`, `close_with` and `next_chunk`, to the await: take the sink or the body, or
reject. -/
def start (s : MuxDuplexStream) (i : ℕ) : DuplexCall → MuxDuplexStream
  | .sink c =>
      match s.inner.sink with
      | none => s.become i (.sink c) (.settled (.error streamClosed))
      | some held =>
          { s with inner := { s.inner with sink := none } }.become i (.sink c)
            (.calling (held.call c))
  | .nextChunk =>
      match s.inner.body with
      | none => s.become i .nextChunk (.settled (.error streamClosed))
      | some held =>
          { s with inner := { s.inner with body := none } }.become i .nextChunk (.reading held)

/-- `push`, `close` and `close_with`, after the call on the sink. -/
def sinkDone (s : MuxDuplexStream) (i : ℕ) (c : SinkCall) (held : RequestSink)
    (outcome : Except LibraryFault Unit) : MuxDuplexStream :=
  let s :=
    if c.consumes then { s with closed := s.closed ++ [held] }
    else { s with inner := { s.inner with sink := some held } }
  s.become i (.sink c) (.settled ((outcome.mapError StreamFault.library).map fun _ => none))

/-- `next_chunk`, after the call on the body. -/
def chunkDone (s : MuxDuplexStream) (i : ℕ) (held : StreamBody) (answer : BodyAnswer) :
    MuxDuplexStream :=
  { s with inner := { s.inner with body := some (held.chunk answer).2 } }.become i .nextChunk
    (.settled ((held.chunk answer).1.mapError StreamFault.library))

/-- One step. -/
def step (s : MuxDuplexStream) : DuplexAction → Option MuxDuplexStream
  | .call c => some { s with tasks := s.tasks ++ [⟨c, .spawned⟩] }
  | .start i =>
      match s.tasks[i]? with
      | some ⟨c, .spawned⟩ => some (s.start i c)
      | _ => none
  | .sinkDone i outcome =>
      match s.tasks[i]? with
      | some ⟨.sink c, .calling held⟩ => some (s.sinkDone i c held outcome)
      | _ => none
  | .chunkDone i answer =>
      match s.tasks[i]? with
      | some ⟨.nextChunk, .reading held⟩ => some (s.chunkDone i held answer)
      | _ => none

/-! What a step can do. -/

/-- The steps of the duplex handle, by what they find. -/
inductive Steps (s : MuxDuplexStream) : DuplexAction → MuxDuplexStream → Prop
  /-- A call makes a promise. -/
  | called (c : DuplexCall) : Steps s (.call c) { s with tasks := s.tasks ++ [⟨c, .spawned⟩] }
  /-- The sink is not there. -/
  | refused (i : ℕ) (c : SinkCall) (htask : s.tasks[i]? = some ⟨.sink c, .spawned⟩)
      (hsink : s.inner.sink = none) :
      Steps s (.start i) (s.become i (.sink c) (.settled (.error streamClosed)))
  /-- The promise takes the sink. -/
  | took (i : ℕ) (c : SinkCall) (held : RequestSink)
      (htask : s.tasks[i]? = some ⟨.sink c, .spawned⟩) (hsink : s.inner.sink = some held) :
      Steps s (.start i)
        ({ s with inner := { s.inner with sink := none } }.become i (.sink c)
          (.calling (held.call c)))
  /-- The body is not there. -/
  | bodyRefused (i : ℕ) (htask : s.tasks[i]? = some ⟨.nextChunk, .spawned⟩)
      (hbody : s.inner.body = none) :
      Steps s (.start i) (s.become i .nextChunk (.settled (.error streamClosed)))
  /-- The promise takes the body. -/
  | bodyTook (i : ℕ) (held : StreamBody) (htask : s.tasks[i]? = some ⟨.nextChunk, .spawned⟩)
      (hbody : s.inner.body = some held) :
      Steps s (.start i)
        ({ s with inner := { s.inner with body := none } }.become i .nextChunk (.reading held))
  /-- A push puts the sink back. -/
  | restored (i : ℕ) (c : SinkCall) (held : RequestSink) (outcome : Except LibraryFault Unit)
      (htask : s.tasks[i]? = some ⟨.sink c, .calling held⟩) (hc : c.consumes = false) :
      Steps s (.sinkDone i outcome)
        ({ s with inner := { s.inner with sink := some held } }.become i (.sink c)
          (.settled ((outcome.mapError StreamFault.library).map fun _ => none)))
  /-- The library has the sink. -/
  | closed (i : ℕ) (c : SinkCall) (held : RequestSink) (outcome : Except LibraryFault Unit)
      (htask : s.tasks[i]? = some ⟨.sink c, .calling held⟩) (hc : c.consumes = true) :
      Steps s (.sinkDone i outcome)
        ({ s with closed := s.closed ++ [held] }.become i (.sink c)
          (.settled ((outcome.mapError StreamFault.library).map fun _ => none)))
  /-- The promise puts the body back. -/
  | answered (i : ℕ) (held : StreamBody) (answer : BodyAnswer)
      (htask : s.tasks[i]? = some ⟨.nextChunk, .reading held⟩) :
      Steps s (.chunkDone i answer) (s.chunkDone i held answer)

theorem steps_of_step {s s' : MuxDuplexStream} {a : DuplexAction} (h : step s a = some s') :
    Steps s a s' := by
  cases a with
  | call c =>
    cases h
    exact .called c
  | start i =>
    unfold step at h
    dsimp only at h
    split at h
    · next c htask =>
      cases h
      unfold start
      split
      · next c =>
        split
        · next hsink => exact .refused i c htask hsink
        · next held hsink => exact .took i c held htask hsink
      · split
        · next hbody => exact .bodyRefused i htask hbody
        · next held hbody => exact .bodyTook i held htask hbody
    · cases h
  | sinkDone i outcome =>
    unfold step at h
    dsimp only at h
    split at h
    · next c held htask =>
      cases h
      unfold sinkDone
      cases hc : c.consumes with
      | false => exact .restored i c held outcome htask hc
      | true => exact .closed i c held outcome htask hc
    · cases h
  | chunkDone i answer =>
    unfold step at h
    dsimp only at h
    split at h
    · next held htask =>
      cases h
      exact .answered i held answer htask
    · cases h

/-! The sink over a run. -/

/-- The sink of the duplex handle. -/
def view : SinkView MuxDuplexStream DuplexAction where
  sink s := s.inner.sink
  held s := heldBy DuplexTask.heldSink s.tasks
  closed s := s.closed
  progress s := heldBy (fun t => some t.progress) s.tasks
  starts
    | s, .start i =>
        match s.tasks[i]? with
        | some ⟨.sink c, _⟩ => some (i, c)
        | _ => none
    | _, _ => none
  returns
    | .sinkDone i outcome => some (i, outcome)
    | _ => none

theorem handles_of_steps {s s' : MuxDuplexStream} {a : DuplexAction} (h : Steps s a s') :
    view.Handles s a s' := by
  cases h with
  | called c => exact .idle rfl rfl rfl (heldBy_concat rfl) rfl
  | refused i c htask hsink =>
    refine .refuse i c ?_ rfl hsink hsink (heldBy_set_same htask rfl) rfl
      (heldBy_set_self htask _)
    simp [view, htask]
  | took i c held htask hsink =>
    refine .take i c held ?_ rfl hsink rfl (heldBy_set htask _) rfl (heldBy_set_self htask _)
    simp [view, htask]
  | bodyRefused i htask hbody =>
    exact .idle (by simp [view, htask]) rfl rfl (heldBy_set_same htask rfl) rfl
  | bodyTook i held htask hbody =>
    exact .idle (by simp [view, htask]) rfl rfl (heldBy_set_same htask rfl) rfl
  | restored i c held outcome htask hc =>
    exact .restore i c held outcome rfl rfl (heldBy_of_getElem? htask) hc rfl
      (heldBy_set htask _) rfl
  | closed i c held outcome htask hc =>
    exact .close i c held outcome rfl rfl (heldBy_of_getElem? htask) hc rfl
      (heldBy_set htask _) rfl
  | answered i held answer htask =>
    exact .idle rfl rfl rfl (heldBy_set_same htask rfl) rfl

/-- Nobody who took the sink is ever rejected for an empty handle. -/
theorem keeps_of_steps {s s' : MuxDuplexStream} {a : DuplexAction} (h : Steps s a s') (i : ℕ)
    (hi : Progress.Taken (view.progress s i)) : Progress.Taken (view.progress s' i) := by
  cases h with
  | called c => exact Progress.taken_concat hi
  | refused j c htask hsink => exact Progress.taken_set htask False.elim hi
  | bodyRefused j htask hbody => exact Progress.taken_set htask False.elim hi
  | took j c held htask hsink =>
    refine Progress.taken_set htask (fun _ => ?_) hi
    exact trivial
  | bodyTook j held htask hbody =>
    refine Progress.taken_set htask (fun _ => ?_) hi
    exact trivial
  | restored j c held outcome htask hc =>
    exact Progress.taken_set htask (fun _ => Progress.taken_returned outcome) hi
  | closed j c held outcome htask hc =>
    exact Progress.taken_set htask (fun _ => Progress.taken_returned outcome) hi
  | answered j held answer htask =>
    exact Progress.taken_set htask (fun _ => Progress.taken_answered (held.chunk answer).1) hi

theorem kept_of_trace {body : StreamBody} {moves : List (Move MuxDuplexStream DuplexAction)}
    {s : MuxDuplexStream} (h : Trace step (fromParts ⟨[]⟩ body) moves s) : view.Kept moves s := by
  induction h with
  | nil => exact ⟨.start, fun i hi => absurd hi List.not_mem_nil⟩
  | snoc _ hstep ih =>
    have hsteps := steps_of_step hstep
    exact ih.next (handles_of_steps hsteps) (keeps_of_steps hsteps)

/-- **The sink of the duplex handle** is exclusive and ordered. -/
theorem exclusive {body : StreamBody} {moves : List (Move MuxDuplexStream DuplexAction)}
    {s : MuxDuplexStream} (h : Trace step (fromParts ⟨[]⟩ body) moves s) :
    view.Exclusive moves s :=
  .of_kept (fun _ _ h => kept_of_trace h)
    (fun _ _ _ _ _ hstep => handles_of_steps (steps_of_step hstep)) h

/-! The body over a run. -/

/-- The promise that takes the body in a move. -/
def reads (m : Move MuxDuplexStream DuplexAction) : Option (ℕ × Unit) :=
  match m.action with
  | .start i =>
      match m.before.tasks[i]?, m.before.inner.body with
      | some ⟨.nextChunk, _⟩, some _ => some (i, ())
      | _, _ => none
  | _ => none

/-- The promise of a `nextChunk` that settles in a move, and with what. -/
def answers (m : Move MuxDuplexStream DuplexAction) : Option (ℕ × Settlement) :=
  match m.action with
  | .chunkDone i _ =>
      match m.after.tasks[i]? with
      | some ⟨_, .settled outcome⟩ => some (i, outcome)
      | _ => none
  | _ => none

/-- The chunk a promise settled with. -/
def chunkOf (answer : ℕ × Settlement) : Option Octets :=
  match answer.2 with
  | .ok chunk => chunk
  | .error _ => none

/-- What `nextChunk` returned, in order. -/
def chunks (moves : List (Move MuxDuplexStream DuplexAction)) : List Octets :=
  (moves.filterMap answers).filterMap chunkOf

/-- How the library's body is used. -/
def bodyProtocol (peer : StreamBody) : Protocol StreamBody Unit Settlement where
  initial := peer
  use _ body := body
  settle _ body outcome body' :=
    ∃ answer, outcome = (body.chunk answer).1.mapError StreamFault.library ∧
      body' = (body.chunk answer).2
  final _ := False

/-- Where the body is, and who took it. -/
def bodyLedger (moves : List (Move MuxDuplexStream DuplexAction)) (s : MuxDuplexStream) :
    Ledger StreamBody Unit Settlement :=
  ⟨s.inner.body, heldBy DuplexTask.heldBody s.tasks, [], moves.filterMap reads,
    moves.filterMap answers⟩

theorem bodyLedger_snoc (moves : List (Move MuxDuplexStream DuplexAction)) (s s' : MuxDuplexStream)
    (a : DuplexAction) :
    bodyLedger (moves ++ [⟨s, a, s'⟩]) s' = ⟨s'.inner.body, heldBy DuplexTask.heldBody s'.tasks, [],
      moves.filterMap reads ++ (reads ⟨s, a, s'⟩).toList,
      moves.filterMap answers ++ (answers ⟨s, a, s'⟩).toList⟩ := by
  rw [bodyLedger, List.filterMap_append, List.filterMap_append]
  cases hr : reads ⟨s, a, s'⟩ <;> cases ha : answers ⟨s, a, s'⟩ <;> simp [hr, ha]

theorem getElem?_chunkDone {s : MuxDuplexStream} {i : ℕ} {old : DuplexTask}
    (htask : s.tasks[i]? = some old) (held : StreamBody) (answer : BodyAnswer) :
    (s.chunkDone i held answer).tasks[i]? =
      some ⟨.nextChunk, .settled ((held.chunk answer).1.mapError StreamFault.library)⟩ := by
  obtain ⟨hi, -⟩ := List.getElem?_eq_some_iff.1 htask
  exact List.getElem?_set_self hi

/-- A step uses the body as a lease. -/
theorem body_run_next {peer : StreamBody} {moves : List (Move MuxDuplexStream DuplexAction)}
    {s s' : MuxDuplexStream} {a : DuplexAction} (hrun : (bodyProtocol peer).Run (bodyLedger moves s))
    (h : Steps s a s') : (bodyProtocol peer).Run (bodyLedger (moves ++ [⟨s, a, s'⟩]) s') := by
  -- most steps leave the body, and who holds it, alone
  have hidle (hbody : s'.inner.body = s.inner.body)
      (hheld : heldBy DuplexTask.heldBody s'.tasks = heldBy DuplexTask.heldBody s.tasks)
      (hreads : reads ⟨s, a, s'⟩ = none) (hanswers : answers ⟨s, a, s'⟩ = none) :
      (bodyProtocol peer).Run (bodyLedger (moves ++ [⟨s, a, s'⟩]) s') := by
    rw [bodyLedger_snoc, hbody, hheld, hreads, hanswers]
    simpa [bodyLedger] using hrun
  have htake {i : ℕ} {held : StreamBody} (hfull : s.inner.body = some held)
      (hbody : s'.inner.body = none)
      (hheld : heldBy DuplexTask.heldBody s'.tasks =
        Function.update (heldBy DuplexTask.heldBody s.tasks) i (some ((), held)))
      (hreads : reads ⟨s, a, s'⟩ = some (i, ())) (hanswers : answers ⟨s, a, s'⟩ = none) :
      (bodyProtocol peer).Run (bodyLedger (moves ++ [⟨s, a, s'⟩]) s') := by
    rw [bodyLedger_snoc, hbody, hheld, hreads, hanswers]
    simpa [bodyProtocol] using Protocol.Run.take i () hrun hfull
  have hrestore {i : ℕ} {held : StreamBody} {answer : BodyAnswer}
      (hholds : heldBy DuplexTask.heldBody s.tasks i = some ((), held))
      (hbody : s'.inner.body = some (held.chunk answer).2)
      (hheld : heldBy DuplexTask.heldBody s'.tasks =
        Function.update (heldBy DuplexTask.heldBody s.tasks) i none)
      (hreads : reads ⟨s, a, s'⟩ = none)
      (hanswers : answers ⟨s, a, s'⟩ =
        some (i, (held.chunk answer).1.mapError StreamFault.library)) :
      (bodyProtocol peer).Run (bodyLedger (moves ++ [⟨s, a, s'⟩]) s') := by
    rw [bodyLedger_snoc, hbody, hheld, hreads, hanswers]
    simpa using Protocol.Run.restore i hrun hholds id ⟨answer, rfl, rfl⟩
  cases h with
  | called c => exact hidle rfl (heldBy_concat rfl) rfl rfl
  | refused i c htask hsink =>
    exact hidle rfl (heldBy_set_same htask rfl) (by simp [reads, htask]) rfl
  | took i c held htask hsink =>
    exact hidle rfl (heldBy_set_same htask rfl) (by simp [reads, htask]) rfl
  | bodyRefused i htask hbody =>
    exact hidle rfl (heldBy_set_same htask rfl) (by simp [reads, htask, hbody]) rfl
  | restored i c held outcome htask hc => exact hidle rfl (heldBy_set_same htask rfl) rfl rfl
  | closed i c held outcome htask hc => exact hidle rfl (heldBy_set_same htask rfl) rfl rfl
  | bodyTook i held htask hbody =>
    exact htake hbody rfl (heldBy_set htask _) (by simp [reads, htask, hbody]) rfl
  | answered i held answer htask =>
    refine hrestore (heldBy_of_getElem? htask) rfl (heldBy_set htask _) rfl ?_
    unfold answers
    dsimp only
    rw [getElem?_chunkDone htask]

theorem body_run {peer : StreamBody} {moves : List (Move MuxDuplexStream DuplexAction)}
    {s : MuxDuplexStream} (h : Trace step (fromParts ⟨[]⟩ peer) moves s) :
    (bodyProtocol peer).Run (bodyLedger moves s) := by
  induction h with
  | nil => exact .start
  | snoc _ hstep ih => exact body_run_next ih (steps_of_step hstep)

/-- What `nextChunk` returned of the chunks that are gone: all of them, unless a call failed. -/
def Returned (peer body : StreamBody) (answers : List (ℕ × Settlement)) : Prop :=
  ∃ gone, peer.chunks = gone ++ body.chunks ∧ (answers.filterMap chunkOf).Sublist gone ∧
    ((∀ answer ∈ answers, ∃ chunk, answer.2 = .ok chunk) → answers.filterMap chunkOf = gone)

theorem Returned.chunk {peer body : StreamBody} {answers : List (ℕ × Settlement)}
    (h : Returned peer body answers) (i : ℕ) (answer : BodyAnswer) :
    Returned peer (body.chunk answer).2
      (answers ++ [(i, (body.chunk answer).1.mapError StreamFault.library)]) := by
  obtain ⟨gone, hpeer, hsub, hall⟩ := h
  cases answer with
  | next =>
    have hchunks : (answers ++ [(i, Except.ok body.chunks.head?)]).filterMap chunkOf =
        answers.filterMap chunkOf ++ body.chunks.head?.toList := by
      rw [List.filterMap_append]
      cases h : body.chunks.head? <;> simp [chunkOf]
    refine ⟨gone ++ body.chunks.head?.toList, ?_, ?_, ?_⟩
    · rw [hpeer, List.append_assoc]
      cases h : body.chunks <;> simp [StreamBody.chunk, h]
    · exact hchunks ▸ hsub.append (List.Sublist.refl _)
    · intro hok
      refine hchunks.trans ?_
      rw [hall fun answer hanswer => hok answer (List.mem_append_left _ hanswer)]
  | failed lost fault =>
    -- what is lost is gone, and returned by nobody
    refine ⟨gone ++ body.chunks.take lost, ?_, ?_, ?_⟩
    · rw [hpeer, List.append_assoc]
      simp [StreamBody.chunk]
    · have hchunks : (answers ++ [(i, Except.error (StreamFault.library fault))]).filterMap chunkOf =
          answers.filterMap chunkOf := by
        rw [List.filterMap_append]
        simp [chunkOf]
      exact hchunks ▸ hsub.trans (List.sublist_append_left _ _)
    · intro hok
      obtain ⟨chunk, hchunk⟩ := hok _ (List.mem_append_right _ (List.mem_singleton_self _))
      simp [StreamBody.chunk, Except.mapError] at hchunk

/-- **Chunks are returned once, and in order.** -/
theorem chunks_in_order {peer : StreamBody} {moves : List (Move MuxDuplexStream DuplexAction)}
    {s : MuxDuplexStream} (h : Trace step (fromParts ⟨[]⟩ peer) moves s) :
    (chunks moves).Sublist peer.chunks ∧
      ((∀ answer ∈ moves.filterMap answers, ∃ chunk, answer.2 = .ok chunk) →
        chunks moves <+: peer.chunks) := by
  have hrun := body_run h
  obtain ⟨body, hbody⟩ := hrun.exists_has
  have hreturned : Returned peer body (moves.filterMap answers) := by
    -- taking the body changes nothing of it, and each answer takes its chunks off the front
    refine hrun.value (I := fun body _ answers => Returned peer body answers) ?_ ?_ ?_ hbody
    · exact ⟨[], rfl, List.Sublist.refl _, fun _ => rfl⟩
    · intro body takes settles i u h
      exact h
    · rintro body takes settles i u outcome _ h ⟨answer, rfl, rfl⟩
      exact h.chunk i answer
  obtain ⟨gone, hpeer, hsub, hall⟩ := hreturned
  constructor
  · rw [hpeer]
    exact hsub.trans (List.sublist_append_left _ _)
  · intro hok
    rw [hpeer, chunks, hall hok]
    exact List.prefix_append _ _

/-- **The body is exclusive and ordered** over a run. -/
structure InOrder (peer : StreamBody) (moves : List (Move MuxDuplexStream DuplexAction))
    (s : MuxDuplexStream) : Prop where
  /-- One promise holds the body at a time, and then the cell is empty. -/
  holder : ∀ i j x y, heldBy DuplexTask.heldBody s.tasks i = some x →
    heldBy DuplexTask.heldBody s.tasks j = some y → i = j ∧ s.inner.body = none
  /-- Promises settle in the order in which they took the body. -/
  settles : (moves.filterMap answers).map Prod.fst <+: (moves.filterMap reads).map Prod.fst
  /-- What they return is what the peer sent, each chunk once, and in order. -/
  chunks : (chunks moves).Sublist peer.chunks
  /-- No chunk is left out unless a call failed. -/
  all : (∀ answer ∈ moves.filterMap answers, ∃ chunk, answer.2 = .ok chunk) →
    MuxDuplexStream.chunks moves <+: peer.chunks

theorem inOrder {peer : StreamBody} {moves : List (Move MuxDuplexStream DuplexAction)}
    {s : MuxDuplexStream} (h : Trace step (fromParts ⟨[]⟩ peer) moves s) :
    InOrder peer moves s := by
  have hrun := body_run h
  obtain ⟨hsub, hall⟩ := chunks_in_order h
  refine ⟨?_, hrun.settles_prefix, hsub, hall⟩
  intro i j x y hi hj
  obtain ⟨hcell, -, honly⟩ := hrun.exclusive hi
  exact ⟨(honly j y hj).symm, hcell⟩

end MuxDuplexStream

/-- **Streaming handles are exclusive and ordered**, whatever the interleaving of the promises: one
promise has the sink at a time, the calls of the sink are those of the promises that took it, in
order, who finds the handle empty does not use it, and closing is the last use; the response is
obtained once, and chunks are returned once, in the order the peer sent them. -/
theorem streaming_handles :
    (∀ (ρ : Type) (response : ρ) moves s,
      Trace MuxRequestStream.step (MuxRequestStream.fromParts ⟨[]⟩ response) moves s →
        (MuxRequestStream.view ρ).Exclusive moves s ∧
          (moves.filterMap MuxRequestStream.obtains).length ≤ 1) ∧
    ∀ peer moves s, Trace MuxDuplexStream.step (MuxDuplexStream.fromParts ⟨[]⟩ peer) moves s →
      MuxDuplexStream.view.Exclusive moves s ∧ MuxDuplexStream.InOrder peer moves s :=
  ⟨fun _ _ _ _ h => MuxRequestStream.exclusive h,
    fun _ _ _ h => ⟨MuxDuplexStream.exclusive h, MuxDuplexStream.inOrder h⟩⟩

namespace Small

/-- A push that overlaps another is refused, and the first to read gets the first chunk. -/
theorem overlapping_promises :
    (∃ moves s, Trace MuxRequestStream.step (MuxRequestStream.fromParts ⟨[]⟩ ()) moves s ∧
      (MuxRequestStream.view Unit).Exclusive moves s ∧
      (moves.filterMap MuxRequestStream.obtains).length ≤ 1 ∧
      s.closed = [⟨[.push [1], .close]⟩] ∧
      (MuxRequestStream.view Unit).progress s 1 = some (.settled (.error streamClosed))) ∧
    ∃ moves s, Trace MuxDuplexStream.step (MuxDuplexStream.fromParts ⟨[]⟩ ⟨[[1], [2]]⟩) moves s ∧
      MuxDuplexStream.view.Exclusive moves s ∧ MuxDuplexStream.InOrder ⟨[[1], [2]]⟩ moves s ∧
      MuxDuplexStream.chunks moves = [[1], [2]] := by
  constructor
  · have htrace := (@Trace.nil _ _ MuxRequestStream.step (MuxRequestStream.fromParts ⟨[]⟩ ())).snoc
      (a := .call (.push [1])) rfl
      |>.snoc (a := .call (.push [2])) rfl |>.snoc (a := .call .close) rfl
      |>.snoc (a := .start 0) rfl |>.snoc (a := .start 1) rfl
      |>.snoc (a := .sinkDone 0 (.ok ())) rfl |>.snoc (a := .start 2) rfl
      |>.snoc (a := .sinkDone 2 (.ok ())) rfl |>.snoc (a := .responseDone 2 (.ok none)) rfl
    obtain ⟨hexclusive, honce⟩ := streaming_handles.1 Unit () _ _ htrace
    exact ⟨_, _, htrace, hexclusive, honce, rfl, rfl⟩
  · have htrace := (@Trace.nil _ _ MuxDuplexStream.step
      (MuxDuplexStream.fromParts ⟨[]⟩ ⟨[[1], [2]]⟩)).snoc (a := .call .nextChunk) rfl
      |>.snoc (a := .call .nextChunk) rfl |>.snoc (a := .start 0) rfl
      |>.snoc (a := .chunkDone 0 .next) rfl |>.snoc (a := .start 1) rfl
      |>.snoc (a := .chunkDone 1 .next) rfl
    obtain ⟨hexclusive, hinOrder⟩ := streaming_handles.2 _ _ _ htrace
    exact ⟨_, _, htrace, hexclusive, hinOrder, rfl⟩

end Small

end Ws
end TightbeamExt
