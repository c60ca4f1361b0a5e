import TightbeamExt.Base.Lease
import TightbeamExt.Base.Transition
import TightbeamExt.Asn.Js

/-!
# The streaming request handle

A streaming handle keeps the sink of a stream in a shared cell.  A promise takes the sink out,
awaits a call on it, and puts it back; closing hands it to the library for good.  Promises
overlap, so every await is a step of its own here, and the steps of any number of promises
interleave.  The library's sink is sequential: it records the calls it gets.

The cell and the promises are a lease in the sense of `Lease`.  A handle shows its sink through a
`SinkView`; what is said of the sink is said of views, and so of both handles.

## Main definitions

* `SinkView`, `SinkView.Exclusive` — how a handle shows its sink, and what holds of it over a run.
* `MuxRequestStream`, `MuxRequestStream.step` — the request handle, and a step of one promise.

## Main results

* `SinkView.Exclusive.of_kept` — a sink used as a lease is exclusive and ordered.
* `MuxRequestStream.exclusive` — **so is the sink of the request handle, and its response is
  obtained once.**
-/

namespace TightbeamExt
namespace Ws

open Asn (Octets)
open Transition Lease

/-! ### The library's streams -/

/-- What the library rejects with. -/
inductive LibraryFault
  /-- `transport_to_js` of a transport error. -/
  | transport (code message : String)
  /-- `to_js` of a frame that has no encoding. -/
  | encoding (message : String)
  deriving DecidableEq, Repr

/-- What a streaming call rejects with. -/
inductive StreamFault
  /-- `validation`. -/
  | validation (code message : String)
  /-- A fault of the library. -/
  | library (fault : LibraryFault)
  deriving DecidableEq, Repr

/-- `stream_closed`. -/
def streamClosed : StreamFault := .validation "StreamClosed" "the streaming handle is closed"

/-- What a promise settles with: octets, or `undefined`. -/
abbrev Settlement := Except StreamFault (Option Octets)

/-- A call that uses the sink. -/
inductive SinkCall
  /-- `push`. -/
  | push (chunk : Octets)
  /-- `close`. -/
  | close
  /-- `close_with`. -/
  | closeWith (chunk : Octets)
  deriving DecidableEq, Repr

/-- The call takes the sink by value. -/
def SinkCall.consumes : SinkCall → Bool
  | .push _ => false
  | .close | .closeWith _ => true

/-- `RequestSink`: the calls it got, the first one first. -/
structure RequestSink where
  /-- The calls. -/
  calls : List SinkCall
  deriving DecidableEq, Repr

/-- The sink gets a call. -/
def RequestSink.call (sink : RequestSink) (c : SinkCall) : RequestSink := ⟨sink.calls ++ [c]⟩

/-! ### What is said of a sink -/

/-- Where a promise stands, as the application sees it. -/
inductive Progress
  /-- Its body has not run yet. -/
  | spawned
  /-- Its body runs. -/
  | running
  /-- It is settled. -/
  | settled (outcome : Settlement)
  deriving DecidableEq

/-- The promise did not go away for an empty handle. -/
def Progress.Taken : Option Progress → Prop
  | some .running => True
  | some (.settled outcome) => outcome ≠ .error streamClosed
  | _ => False

/-- What the library rejects with is not that the handle is empty. -/
theorem Progress.taken_answered (answer : Except LibraryFault (Option Octets)) :
    Taken (some (.settled (answer.mapError StreamFault.library))) := by
  cases answer with
  | error fault => simp [Taken, Except.mapError, streamClosed]
  | ok octets => simp [Taken, Except.mapError]

theorem Progress.taken_returned (outcome : Except LibraryFault Unit) :
    Taken (some (.settled ((outcome.mapError StreamFault.library).map fun _ => none))) := by
  cases outcome with
  | error fault => simp [Taken, Except.mapError, Except.map, streamClosed]
  | ok _ => simp [Taken, Except.mapError, Except.map]

section

variable {T : Type} {stands : T → Option Progress} {tasks : List T}

/-- One promise moves on. -/
theorem Progress.taken_set {i : ℕ} {old t : T} (htask : tasks[i]? = some old)
    (ht : Taken (stands old) → Taken (stands t)) {j : ℕ} (hj : Taken (heldBy stands tasks j)) :
    Taken (heldBy stands (tasks.set i t) j) := by
  rw [heldBy_set htask]
  by_cases h : j = i
  · subst h
    rw [heldBy_of_getElem? htask] at hj
    rw [Function.update_self]
    exact ht hj
  · rwa [Function.update_of_ne h]

/-- There is one more promise. -/
theorem Progress.taken_concat {t : T} {j : ℕ} (hj : Taken (heldBy stands tasks j)) :
    Taken (heldBy stands (tasks ++ [t]) j) := by
  cases hp : heldBy stands tasks j with
  | none =>
    rw [hp] at hj
    exact hj.elim
  | some p => rwa [heldBy_concat_of_some hp, ← hp]

end

/-- How a handle shows its sink, and the promises that use it. -/
structure SinkView (σ α : Type) where
  /-- The cell. -/
  sink : σ → Option RequestSink
  /-- What each promise holds, and for which call. -/
  held : σ → ℕ → Option (SinkCall × RequestSink)
  /-- Sinks that closing handed to the library. -/
  closed : σ → List RequestSink
  /-- Where each promise stands. -/
  progress : σ → ℕ → Option Progress
  /-- The promise whose body starts, and its call. -/
  starts : σ → α → Option (ℕ × SinkCall)
  /-- The promise whose call on the sink returns. -/
  returns : α → Option (ℕ × Except LibraryFault Unit)

namespace SinkView

variable {σ α : Type} (v : SinkView σ α)

/-- The promise that takes the sink in a move, and its call. -/
def took (m : Move σ α) : Option (ℕ × SinkCall) :=
  if (v.sink m.before).isSome then v.starts m.before m.action else none

/-- The promises that took the sink, in order, with their calls. -/
def takes (moves : List (Move σ α)) : List (ℕ × SinkCall) := moves.filterMap v.took

/-- Where the sink is, and who took it. -/
def ledger (moves : List (Move σ α)) (s : σ) :
    Ledger RequestSink SinkCall (Except LibraryFault Unit) :=
  ⟨v.sink s, v.held s, v.closed s, v.takes moves, moves.filterMap fun m => v.returns m.action⟩

/-- **The sink is exclusive and ordered** over a run. -/
structure Exclusive (moves : List (Move σ α)) (s : σ) : Prop where
  /-- One promise holds the sink at a time, and then the cell is empty. -/
  holder : ∀ i j x y, v.held s i = some x → v.held s j = some y → i = j ∧ v.sink s = none
  /-- There is one sink, and its calls are those of the promises that took it, in order. -/
  calls : ∃ sink, (∀ x, (v.ledger moves s).Has x ↔ x = sink) ∧
    sink.calls = (v.takes moves).map Prod.snd
  /-- A promise that found the handle empty did not use the sink. -/
  refused : ∀ i, v.progress s i = some (.settled (.error streamClosed)) →
    i ∉ (v.takes moves).map Prod.fst
  /-- Once closing took the sink, every later call is rejected, and does not use it. -/
  closing : ∀ earlier m later i c, moves = earlier ++ m :: later → v.took m = some (i, c) →
    c.consumes = true → ∀ m' ∈ later, ∀ j d, v.starts m'.before m'.action = some (j, d) →
      v.took m' = none ∧ v.progress m'.after j = some (.settled (.error streamClosed))

/-- How the library's sink is used. -/
def protocol : Protocol RequestSink SinkCall (Except LibraryFault Unit) where
  initial := ⟨[]⟩
  use c sink := sink.call c
  settle _ sink _ sink' := sink' = sink
  final c := c.consumes = true

/-- The calls a sink got are the uses so far. -/
theorem calls_of_run {L : Ledger RequestSink SinkCall (Except LibraryFault Unit)}
    (h : protocol.Run L) {sink : RequestSink} (hsink : L.Has sink) :
    sink.calls = L.takes.map Prod.snd := by
  refine h.value (I := fun sink takes _ => sink.calls = takes.map Prod.snd) rfl ?_ ?_ hsink
  · intro sink takes settles i c hcalls
    simp [protocol, RequestSink.call, hcalls]
  · rintro sink takes settles i c outcome _ hcalls rfl
    exact hcalls

/-- What a step may do with the sink. -/
inductive Handles (s : σ) (a : α) (s' : σ) : Prop
  /-- Nothing. -/
  | idle (hstarts : v.starts s a = none) (hreturns : v.returns a = none)
      (hsink : v.sink s' = v.sink s) (hheld : v.held s' = v.held s)
      (hclosed : v.closed s' = v.closed s)
  /-- A promise finds the handle empty. -/
  | refuse (i : ℕ) (c : SinkCall) (hstarts : v.starts s a = some (i, c))
      (hreturns : v.returns a = none) (hempty : v.sink s = none) (hsink : v.sink s' = none)
      (hheld : v.held s' = v.held s) (hclosed : v.closed s' = v.closed s)
      (hrejects : v.progress s' i = some (.settled (.error streamClosed)))
  /-- A promise takes the sink. -/
  | take (i : ℕ) (c : SinkCall) (sink : RequestSink) (hstarts : v.starts s a = some (i, c))
      (hreturns : v.returns a = none) (hfull : v.sink s = some sink) (hsink : v.sink s' = none)
      (hheld : v.held s' = Function.update (v.held s) i (some (c, sink.call c)))
      (hclosed : v.closed s' = v.closed s) (hruns : v.progress s' i = some .running)
  /-- It puts the sink back. -/
  | restore (i : ℕ) (c : SinkCall) (sink : RequestSink) (outcome : Except LibraryFault Unit)
      (hstarts : v.starts s a = none) (hreturns : v.returns a = some (i, outcome))
      (hholds : v.held s i = some (c, sink)) (hc : c.consumes = false)
      (hsink : v.sink s' = some sink) (hheld : v.held s' = Function.update (v.held s) i none)
      (hclosed : v.closed s' = v.closed s)
  /-- The library has the sink. -/
  | close (i : ℕ) (c : SinkCall) (sink : RequestSink) (outcome : Except LibraryFault Unit)
      (hstarts : v.starts s a = none) (hreturns : v.returns a = some (i, outcome))
      (hholds : v.held s i = some (c, sink)) (hc : c.consumes = true)
      (hsink : v.sink s' = v.sink s) (hheld : v.held s' = Function.update (v.held s) i none)
      (hclosed : v.closed s' = v.closed s ++ [sink])

/-- What holds along a run. -/
structure Kept (moves : List (Move σ α)) (s : σ) : Prop where
  /-- The sink is used as a lease. -/
  run : protocol.Run (v.ledger moves s)
  /-- Who took the sink was not refused. -/
  taken : ∀ i ∈ (v.takes moves).map Prod.fst, Progress.Taken (v.progress s i)

variable {v} {step : σ → α → Option σ} {s₀ : σ}

theorem takes_snoc (moves : List (Move σ α)) (m : Move σ α) :
    v.takes (moves ++ [m]) = v.takes moves ++ (v.took m).toList := by
  rw [takes, List.filterMap_append]
  cases h : v.took m <;> simp [h, takes]

theorem ledger_snoc (moves : List (Move σ α)) (s s' : σ) (a : α) :
    v.ledger (moves ++ [⟨s, a, s'⟩]) s' = ⟨v.sink s', v.held s', v.closed s',
      v.takes moves ++ (v.took ⟨s, a, s'⟩).toList,
      (moves.filterMap fun m => v.returns m.action) ++ (v.returns a).toList⟩ := by
  rw [ledger, takes_snoc, List.filterMap_append]
  cases h : v.returns a <;> simp [h]

theorem took_of_starts_none {s s' : σ} {a : α} (h : v.starts s a = none) :
    v.took ⟨s, a, s'⟩ = none := by
  simp [took, h]

theorem took_of_empty {s s' : σ} {a : α} (h : v.sink s = none) : v.took ⟨s, a, s'⟩ = none := by
  simp [took, h]

theorem took_of_full {s s' : σ} {a : α} {sink : RequestSink} (h : v.sink s = some sink) :
    v.took ⟨s, a, s'⟩ = v.starts s a := by
  simp [took, h]

/-- A step uses the sink as a lease. -/
theorem Handles.run {moves : List (Move σ α)} {s s' : σ} {a : α} (h : v.Handles s a s')
    (hrun : protocol.Run (v.ledger moves s)) :
    protocol.Run (v.ledger (moves ++ [⟨s, a, s'⟩]) s') := by
  rw [ledger_snoc]
  cases h with
  | idle hstarts hreturns hsink hheld hclosed =>
    rw [took_of_starts_none hstarts, hreturns, hsink, hheld, hclosed]
    simpa [ledger] using hrun
  | refuse i c hstarts hreturns hempty hsink hheld hclosed =>
    rw [took_of_empty hempty, hreturns, hsink, hheld, hclosed]
    simpa [ledger, hempty] using hrun
  | take i c sink hstarts hreturns hfull hsink hheld hclosed =>
    rw [took_of_full hfull, hstarts, hreturns, hsink, hheld, hclosed]
    simpa [protocol] using Protocol.Run.take i c hrun hfull
  | restore i c sink outcome hstarts hreturns hholds hc hsink hheld hclosed =>
    rw [took_of_starts_none hstarts, hreturns, hsink, hheld, hclosed]
    simpa using Protocol.Run.restore i hrun hholds (by simp [protocol, hc]) rfl
  | close i c sink outcome hstarts hreturns hholds hc hsink hheld hclosed =>
    rw [took_of_starts_none hstarts, hreturns, hsink, hheld, hclosed]
    simpa using Protocol.Run.spend i hrun hholds hc rfl

/-- What holds along a run is kept by a step. -/
theorem Kept.next {moves : List (Move σ α)} {s s' : σ} {a : α} (hk : v.Kept moves s)
    (h : v.Handles s a s')
    (hkeeps : ∀ i, Progress.Taken (v.progress s i) → Progress.Taken (v.progress s' i)) :
    v.Kept (moves ++ [⟨s, a, s'⟩]) s' := by
  refine ⟨h.run hk.run, ?_⟩
  intro i hi
  rw [takes_snoc, List.map_append, List.mem_append] at hi
  rcases hi with hi | hi
  · exact hkeeps i (hk.taken i hi)
  · cases h with
    | take j c sink hstarts _ hfull _ _ _ hruns =>
      rw [took_of_full hfull, hstarts] at hi
      obtain rfl : i = j := by simpa using hi
      rw [hruns]
      trivial
    | idle hstarts => simp [took_of_starts_none hstarts] at hi
    | refuse _ _ _ _ hempty => simp [took_of_empty hempty] at hi
    | restore _ _ _ _ hstarts => simp [took_of_starts_none hstarts] at hi
    | close _ _ _ _ hstarts => simp [took_of_starts_none hstarts] at hi

/-- A body that finds the handle empty rejects. -/
theorem Handles.rejects {s s' : σ} {a : α} (h : v.Handles s a s') {i : ℕ} {c : SinkCall}
    (hstarts : v.starts s a = some (i, c)) (hempty : v.sink s = none) :
    v.progress s' i = some (.settled (.error streamClosed)) := by
  cases h with
  | refuse j d hstarts' _ _ _ _ _ hrejects =>
    rw [hstarts] at hstarts'
    cases hstarts'
    exact hrejects
  | idle hstarts' => simp [hstarts] at hstarts'
  | take _ _ _ _ _ hfull => simp [hempty] at hfull
  | restore _ _ _ _ hstarts' => simp [hstarts] at hstarts'
  | close _ _ _ _ hstarts' => simp [hstarts] at hstarts'

/-- A handle that uses its sink as a lease is exclusive and ordered. -/
theorem Exclusive.of_kept (hkept : ∀ moves s, Trace step s₀ moves s → v.Kept moves s)
    (hhandles : ∀ moves s a s', Trace step s₀ moves s → step s a = some s' → v.Handles s a s')
    {moves : List (Move σ α)} {s : σ} (h : Trace step s₀ moves s) : v.Exclusive moves s := by
  have hk := hkept moves s h
  refine ⟨?_, ?_, ?_, ?_⟩
  · intro i j x y hi hj
    obtain ⟨hcell, -, honly⟩ := hk.run.exclusive hi
    exact ⟨(honly j y hj).symm, hcell⟩
  · obtain ⟨sink, hsink⟩ := hk.run.exists_has
    have hcalls := calls_of_run hk.run hsink
    refine ⟨sink, fun x => ⟨?_, fun hx => hx ▸ hsink⟩, hcalls⟩
    intro hx
    have hx' := calls_of_run hk.run hx
    cases x
    cases sink
    exact congrArg RequestSink.mk (hx'.trans hcalls.symm)
  · intro i hi hmem
    have htaken := hk.taken i hmem
    rw [hi] at htaken
    exact htaken rfl
  · rintro earlier m later i c rfl hm hc m' hm' j d hstarts
    obtain ⟨middle, rest, rfl⟩ := List.append_of_mem hm'
    -- the ledger just before the later move has the closing call
    rw [← List.cons_append, ← List.append_assoc] at h
    obtain ⟨hbefore, hstep⟩ := h.cut
    have htakes : v.takes (earlier ++ m :: middle) =
        v.takes earlier ++ (i, c) :: v.takes middle := by
      rw [takes, List.filterMap_append, List.filterMap_cons_some hm]
      rfl
    have hempty : v.sink m'.before = none := ((hkept _ _ hbefore).run.final_last htakes hc).2
    exact ⟨took_of_empty hempty, (hhandles _ _ _ _ hbefore hstep).rejects hstarts hempty⟩

end SinkView

/-! ### The request handle -/

/-- `RequestInner`; `ρ` are the response futures. -/
structure RequestInner (ρ : Type) where
  /-- The sink. -/
  sink : Option RequestSink
  /-- The response. -/
  response : Option ρ

/-- Where a promise of the request handle stands. -/
inductive RequestPhase (ρ : Type)
  /-- Its body has not run yet. -/
  | spawned
  /-- It awaits the call on the sink, which it holds. -/
  | calling (held : RequestSink)
  /-- It awaits the response. -/
  | awaiting (future : ρ)
  /-- It is settled. -/
  | settled (outcome : Settlement)

/-- A promise of the request handle. -/
structure RequestTask (ρ : Type) where
  /-- `push`, `close` or `closeWith`. -/
  call : SinkCall
  /-- Where it stands. -/
  phase : RequestPhase ρ

namespace RequestTask

variable {ρ : Type}

/-- What a promise holds, and for which call. -/
def heldSink (t : RequestTask ρ) : Option (SinkCall × RequestSink) :=
  match t.phase with
  | .calling held => some (t.call, held)
  | _ => none

/-- Where a promise stands, as the application sees it. -/
def progress (t : RequestTask ρ) : Progress :=
  match t.phase with
  | .spawned => .spawned
  | .calling _ | .awaiting _ => .running
  | .settled outcome => .settled outcome

end RequestTask

/-- A request handle with its promises. -/
structure MuxRequestStream (ρ : Type) where
  /-- The shared cell. -/
  inner : RequestInner ρ
  /-- The promises, in the order of the calls. -/
  tasks : List (RequestTask ρ)
  /-- Sinks that closing handed to the library. -/
  closed : List RequestSink

/-- One step of the request handle. -/
inductive RequestAction
  /-- The application calls. -/
  | call (c : SinkCall)
  /-- The body of a promise runs to its first await. -/
  | start (i : ℕ)
  /-- The call on the sink returns. -/
  | sinkDone (i : ℕ) (outcome : Except LibraryFault Unit)
  /-- The response is there, as DER. -/
  | responseDone (i : ℕ) (response : Except LibraryFault (Option Octets))

namespace MuxRequestStream

variable {ρ : Type}

/-- `from_parts`: a new stream. -/
def fromParts (sink : RequestSink) (response : ρ) : MuxRequestStream ρ :=
  ⟨⟨some sink, some response⟩, [], []⟩

/-- A promise moves on. -/
def become (s : MuxRequestStream ρ) (i : ℕ) (c : SinkCall) (phase : RequestPhase ρ) :
    MuxRequestStream ρ :=
  { s with tasks := s.tasks.set i ⟨c, phase⟩ }

/-- `push`, `close` and `close_with`, to the first await: take the sink, or reject. -/
def start (s : MuxRequestStream ρ) (i : ℕ) (c : SinkCall) : MuxRequestStream ρ :=
  match s.inner.sink with
  | none => s.become i c (.settled (.error streamClosed))
  | some held =>
      { s with inner := { s.inner with sink := none } }.become i c (.calling (held.call c))

/-- `resolve_response`, to its await. -/
def resolveResponse (s : MuxRequestStream ρ) (i : ℕ) (c : SinkCall) : MuxRequestStream ρ :=
  match s.inner.response with
  | none => s.become i c (.settled (.error streamClosed))
  | some future =>
      { s with inner := { s.inner with response := none } }.become i c (.awaiting future)

/-- `push`, `close` and `close_with`, after the call on the sink. -/
def sinkDone (s : MuxRequestStream ρ) (i : ℕ) (c : SinkCall) (held : RequestSink)
    (outcome : Except LibraryFault Unit) : MuxRequestStream ρ :=
  if c.consumes then
    let s := { s with closed := s.closed ++ [held] }
    match outcome with
    | .error fault => s.become i c (.settled (.error (.library fault)))
    | .ok () => s.resolveResponse i c
  else
    { s with inner := { s.inner with sink := some held } }.become i c
      (.settled ((outcome.mapError StreamFault.library).map fun _ => none))

/-- One step. -/
def step (s : MuxRequestStream ρ) : RequestAction → Option (MuxRequestStream ρ)
  | .call c => some { s with tasks := s.tasks ++ [⟨c, .spawned⟩] }
  | .start i =>
      match s.tasks[i]? with
      | some ⟨c, .spawned⟩ => some (s.start i c)
      | _ => none
  | .sinkDone i outcome =>
      match s.tasks[i]? with
      | some ⟨c, .calling held⟩ => some (s.sinkDone i c held outcome)
      | _ => none
  | .responseDone i response =>
      match s.tasks[i]? with
      | some ⟨c, .awaiting _⟩ => some (s.become i c (.settled (response.mapError StreamFault.library)))
      | _ => none

/-! What a step can do. -/

/-- The steps of the request handle, by what they find. -/
inductive Steps (s : MuxRequestStream ρ) : RequestAction → MuxRequestStream ρ → Prop
  /-- A call makes a promise. -/
  | called (c : SinkCall) : Steps s (.call c) { s with tasks := s.tasks ++ [⟨c, .spawned⟩] }
  /-- The handle is empty. -/
  | refused (i : ℕ) (c : SinkCall) (htask : s.tasks[i]? = some ⟨c, .spawned⟩)
      (hsink : s.inner.sink = none) :
      Steps s (.start i) (s.become i c (.settled (.error streamClosed)))
  /-- The promise takes the sink. -/
  | took (i : ℕ) (c : SinkCall) (held : RequestSink) (htask : s.tasks[i]? = some ⟨c, .spawned⟩)
      (hsink : s.inner.sink = some held) :
      Steps s (.start i)
        ({ s with inner := { s.inner with sink := none } }.become i c (.calling (held.call c)))
  /-- A push puts it back. -/
  | restored (i : ℕ) (c : SinkCall) (held : RequestSink) (outcome : Except LibraryFault Unit)
      (htask : s.tasks[i]? = some ⟨c, .calling held⟩) (hc : c.consumes = false) :
      Steps s (.sinkDone i outcome)
        ({ s with inner := { s.inner with sink := some held } }.become i c
          (.settled ((outcome.mapError StreamFault.library).map fun _ => none)))
  /-- Closing failed. -/
  | failed (i : ℕ) (c : SinkCall) (held : RequestSink) (fault : LibraryFault)
      (htask : s.tasks[i]? = some ⟨c, .calling held⟩) (hc : c.consumes = true) :
      Steps s (.sinkDone i (.error fault))
        ({ s with closed := s.closed ++ [held] }.become i c (.settled (.error (.library fault))))
  /-- Closing went through, and there is a response to await. -/
  | obtained (i : ℕ) (c : SinkCall) (held : RequestSink) (future : ρ)
      (htask : s.tasks[i]? = some ⟨c, .calling held⟩) (hc : c.consumes = true)
      (hresponse : s.inner.response = some future) :
      Steps s (.sinkDone i (.ok ()))
        ({ s with closed := s.closed ++ [held], inner := { s.inner with response := none } }.become
          i c (.awaiting future))
  /-- Closing went through, and the response is gone. -/
  | bereft (i : ℕ) (c : SinkCall) (held : RequestSink)
      (htask : s.tasks[i]? = some ⟨c, .calling held⟩) (hc : c.consumes = true)
      (hresponse : s.inner.response = none) :
      Steps s (.sinkDone i (.ok ()))
        ({ s with closed := s.closed ++ [held] }.become i c (.settled (.error streamClosed)))
  /-- The response is there. -/
  | responded (i : ℕ) (c : SinkCall) (future : ρ) (response : Except LibraryFault (Option Octets))
      (htask : s.tasks[i]? = some ⟨c, .awaiting future⟩) :
      Steps s (.responseDone i response) (s.become i c (.settled (response.mapError StreamFault.library)))

theorem steps_of_step {s s' : MuxRequestStream ρ} {a : RequestAction} (h : step s a = some s') :
    Steps s a s' := by
  cases a with
  | call c =>
    cases h
    exact .called c
  | start i =>
    unfold step at h
    dsimp only at h
    split at h
    · next c htask =>
      cases h
      unfold start
      split
      · next hsink => exact .refused i c htask hsink
      · next held hsink => exact .took i c held htask hsink
    · cases h
  | sinkDone i outcome =>
    unfold step at h
    dsimp only at h
    split at h
    · next c held htask =>
      cases h
      unfold sinkDone
      split
      · next hc =>
        cases outcome with
        | error fault => exact .failed i c held fault htask hc
        | ok _ =>
          dsimp only
          unfold resolveResponse
          split
          · next hresponse => exact .bereft i c held htask hc hresponse
          · next future hresponse => exact .obtained i c held future htask hc hresponse
      · next hc => exact .restored i c held outcome htask (Bool.eq_false_iff.2 hc)
    · cases h
  | responseDone i response =>
    unfold step at h
    dsimp only at h
    split at h
    · next c future htask =>
      cases h
      exact .responded i c future response htask
    · cases h

/-! The sink over a run. -/

/-- The sink of the request handle. -/
def view (ρ : Type) : SinkView (MuxRequestStream ρ) RequestAction where
  sink s := s.inner.sink
  held s := heldBy RequestTask.heldSink s.tasks
  closed s := s.closed
  progress s := heldBy (fun t => some t.progress) s.tasks
  starts
    | s, .start i => s.tasks[i]?.map fun t => (i, t.call)
    | _, _ => none
  returns
    | .sinkDone i outcome => some (i, outcome)
    | _ => none

/-- The promise that a move lets await the response. -/
def obtains (m : Move (MuxRequestStream ρ) RequestAction) : Option ℕ :=
  match m.action with
  | .sinkDone i _ =>
      match m.after.tasks[i]? with
      | some ⟨_, .awaiting _⟩ => some i
      | _ => none
  | _ => none

theorem handles_of_steps {s s' : MuxRequestStream ρ} {a : RequestAction} (h : Steps s a s') :
    (view ρ).Handles s a s' := by
  cases h with
  | called c => exact .idle rfl rfl rfl (heldBy_concat rfl) rfl
  | refused i c htask hsink =>
    refine .refuse i c ?_ rfl hsink hsink (heldBy_set_same htask rfl) rfl
      (heldBy_set_self htask _)
    simp [view, htask]
  | took i c held htask hsink =>
    refine .take i c held ?_ rfl hsink rfl (heldBy_set htask _) rfl (heldBy_set_self htask _)
    simp [view, htask]
  | restored i c held outcome htask hc =>
    exact .restore i c held outcome rfl rfl (heldBy_of_getElem? htask) hc rfl
      (heldBy_set htask _) rfl
  | failed i c held fault htask hc =>
    exact .close i c held (.error fault) rfl rfl (heldBy_of_getElem? htask) hc rfl
      (heldBy_set htask _) rfl
  | obtained i c held future htask hc hresponse =>
    exact .close i c held (.ok ()) rfl rfl (heldBy_of_getElem? htask) hc rfl
      (heldBy_set htask _) rfl
  | bereft i c held htask hc hresponse =>
    exact .close i c held (.ok ()) rfl rfl (heldBy_of_getElem? htask) hc rfl
      (heldBy_set htask _) rfl
  | responded i c future response htask =>
    exact .idle rfl rfl rfl (heldBy_set_same htask rfl) rfl

/-- What holds along a run of the request handle. -/
structure Kept (moves : List (Move (MuxRequestStream ρ) RequestAction)) (s : MuxRequestStream ρ) :
    Prop where
  /-- The sink is used as a lease. -/
  sink : (view ρ).Kept moves s
  /-- Until a sink is closed, the response is there. -/
  response : s.inner.response = none → s.closed ≠ []
  /-- It is obtained once. -/
  once : (moves.filterMap obtains).length + (if s.inner.response.isSome then 1 else 0) ≤ 1

theorem kept_start (response : ρ) : Kept [] (fromParts ⟨[]⟩ response) where
  sink := ⟨.start, fun i hi => absurd hi List.not_mem_nil⟩
  response := fun h => by cases h
  once := Nat.le_refl _

/-- Who settles with the sink in hand finds the response. -/
theorem Kept.hasResponse {moves : List (Move (MuxRequestStream ρ) RequestAction)}
    {s : MuxRequestStream ρ} (hk : Kept moves s) {i : ℕ} {c : SinkCall} {held : RequestSink}
    (htask : s.tasks[i]? = some ⟨c, .calling held⟩) : s.inner.response ≠ none := by
  intro hnone
  have hholds : (view ρ).held s i = some (c, held) := heldBy_of_getElem? htask
  exact hk.response hnone (hk.sink.run.exclusive hholds).2.1

/-- Nobody who took the sink is ever rejected for an empty handle. -/
theorem Kept.keeps {moves : List (Move (MuxRequestStream ρ) RequestAction)}
    {s s' : MuxRequestStream ρ} {a : RequestAction} (hk : Kept moves s) (h : Steps s a s') (i : ℕ)
    (hi : Progress.Taken ((view ρ).progress s i)) :
    Progress.Taken ((view ρ).progress s' i) := by
  cases h with
  | called c => exact Progress.taken_concat hi
  | refused j c htask hsink => exact Progress.taken_set htask False.elim hi
  | took j c held htask hsink =>
    refine Progress.taken_set htask (fun _ => ?_) hi
    exact trivial
  | restored j c held outcome htask hc =>
    exact Progress.taken_set htask (fun _ => Progress.taken_returned outcome) hi
  | failed j c held fault htask hc =>
    exact Progress.taken_set htask (fun _ => Progress.taken_returned (.error fault)) hi
  | obtained j c held future htask hc hresponse =>
    refine Progress.taken_set htask (fun _ => ?_) hi
    exact trivial
  | bereft j c held htask hc hresponse =>
    -- this rejection is the one of an empty handle too, and never happens
    exact absurd hresponse (hk.hasResponse htask)
  | responded j c future response htask =>
    exact Progress.taken_set htask (fun _ => Progress.taken_answered response) hi

/-- Only one move lets a promise await the response, and it empties the cell. -/
theorem obtains_of_steps {s s' : MuxRequestStream ρ} {a : RequestAction} (h : Steps s a s') :
    obtains ⟨s, a, s'⟩ = none ∧ s'.inner.response = s.inner.response ∨
      (∃ i, obtains ⟨s, a, s'⟩ = some i) ∧ s.inner.response.isSome ∧ s'.inner.response = none := by
  have hset {i : ℕ} {old : RequestTask ρ} (htask : s.tasks[i]? = some old) (t : RequestTask ρ) :
      (s.tasks.set i t)[i]? = some t := by
    obtain ⟨hi, -⟩ := List.getElem?_eq_some_iff.1 htask
    exact List.getElem?_set_self hi
  cases h with
  | called c => exact .inl ⟨rfl, rfl⟩
  | refused i c htask hsink => exact .inl ⟨rfl, rfl⟩
  | took i c held htask hsink => exact .inl ⟨rfl, rfl⟩
  | restored i c held outcome htask hc =>
    exact .inl ⟨by simp [obtains, become, hset htask], rfl⟩
  | failed i c held fault htask hc =>
    exact .inl ⟨by simp [obtains, become, hset htask], rfl⟩
  | obtained i c held future htask hc hresponse =>
    exact .inr ⟨⟨i, by simp [obtains, become, hset htask]⟩, by simp [hresponse], rfl⟩
  | bereft i c held htask hc hresponse =>
    exact .inl ⟨by simp [obtains, become, hset htask], rfl⟩
  | responded i c future response htask => exact .inl ⟨rfl, rfl⟩

theorem Kept.next {moves : List (Move (MuxRequestStream ρ) RequestAction)}
    {s s' : MuxRequestStream ρ} {a : RequestAction} (hk : Kept moves s) (h : Steps s a s') :
    Kept (moves ++ [⟨s, a, s'⟩]) s' := by
  refine ⟨hk.sink.next (handles_of_steps h) (hk.keeps h), ?_, ?_⟩
  · -- the response leaves its cell only in a move that closes the sink
    intro hnone
    cases h with
    | called | refused | took | restored | responded => exact hk.response hnone
    | failed | obtained | bereft => exact List.append_ne_nil_of_right_ne_nil _ (List.cons_ne_nil _ _)
  · have honce := hk.once
    rw [List.filterMap_append, List.length_append]
    rcases obtains_of_steps h with ⟨hobtains, hsame⟩ | ⟨⟨i, hobtains⟩, hsome, hnone⟩
    · rw [hsame]
      simpa [hobtains] using honce
    · rw [hsome] at honce
      have hnil : moves.filterMap obtains = [] := by
        rw [← List.length_eq_zero_iff]
        simp only [if_true] at honce
        omega
      simp [hobtains, hnone, hnil]

theorem kept_of_trace {response : ρ} {moves : List (Move (MuxRequestStream ρ) RequestAction)}
    {s : MuxRequestStream ρ} (h : Trace step (fromParts ⟨[]⟩ response) moves s) : Kept moves s := by
  induction h with
  | nil => exact kept_start response
  | snoc _ hstep ih => exact ih.next (steps_of_step hstep)

/-- **The request handle** is exclusive and ordered, and its response is obtained once. -/
theorem exclusive {response : ρ} {moves : List (Move (MuxRequestStream ρ) RequestAction)}
    {s : MuxRequestStream ρ} (h : Trace step (fromParts ⟨[]⟩ response) moves s) :
    (view ρ).Exclusive moves s ∧ (moves.filterMap obtains).length ≤ 1 := by
  refine ⟨.of_kept (fun _ _ h => (kept_of_trace h).sink)
    (fun _ _ _ _ _ hstep => handles_of_steps (steps_of_step hstep)) h, ?_⟩
  have := (kept_of_trace h).once
  omega

end MuxRequestStream

end Ws
end TightbeamExt
