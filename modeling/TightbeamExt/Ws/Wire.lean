import TightbeamExt.Base.Transition
import TightbeamExt.Pubsub.Topic

/-!
# Envelopes on a WebSocket

Either end of a connection carries one DER envelope a binary message.  The native end is a
`tungstenite` stream, the one of a browser a `gloo` stream; they differ in what their streams yield
and in their errors, and are one reader and one writer otherwise.  A read that is given up while it
waits leaves the stream as it is.

## Main definitions

* `Framing`, `native`, `browser` — what a stream yields, and how its items and errors are taken.
* `readBinaryFrame` — the loop of a read over the items that are there.
* `Endpoint`, `Link` — a stream with its reads and writes; two of them over one connection.

## Main results

* `link_faithful` — **no envelope is lost, doubled or overtaken** between what one end wrote and what
  the reads of the other took, whatever interleaves; over its ceiling a read fails, and `is_alive`
  tells whether any read or write has.
-/

namespace TightbeamExt
namespace Ws

open Pubsub (Octets)
open Transition

/-- `TransportError`, as far as framing knows it. -/
inductive TransportError (E : Type)
  /-- `ConnectionClosed`. -/
  | connectionClosed
  /-- `IoError`. -/
  | ioError (error : E)
  /-- `OperationFailed(TransportFailure::SizeExceeded)`. -/
  | sizeExceeded
  /-- `InvalidMessage`. -/
  | invalidMessage
  deriving DecidableEq, Repr

/-- What an item of a stream is to a read. -/
inductive Verdict (E : Type)
  /-- A binary message. -/
  | envelope (payload : Octets)
  /-- A text or a control frame. -/
  | skipped
  /-- The end of the connection, or an error. -/
  | failed (error : TransportError E)
  deriving DecidableEq, Repr

/-- A WebSocket library: the items its streams yield, and the errors of its sinks. -/
structure Framing (E : Type) where
  /-- What a stream yields. -/
  Item : Type
  /-- What a sink fails with. -/
  SinkError : Type
  /-- How a read takes an item. -/
  verdict : Item → Verdict E
  /-- The binary message of an envelope. -/
  binary : Octets → Item
  /-- `map_ws_error`. -/
  mapError : SinkError → TransportError E
  /-- A binary message is taken as its envelope. -/
  verdict_binary : ∀ payload, verdict (binary payload) = .envelope payload

/-! ### The native end -/

/-- `tungstenite::Message`. -/
inductive WsMessage
  /-- `Text`. -/
  | text (text : String)
  /-- `Binary`. -/
  | binary (payload : Octets)
  /-- `Ping`. -/
  | ping (payload : Octets)
  /-- `Pong`. -/
  | pong (payload : Octets)
  /-- `Close`. -/
  | close (code : Option ℕ)
  /-- `Frame`. -/
  | frame (payload : Octets)
  deriving DecidableEq, Repr

/-- `tungstenite::Error`. -/
inductive WsError (E : Type)
  /-- `ConnectionClosed`. -/
  | connectionClosed
  /-- `AlreadyClosed`. -/
  | alreadyClosed
  /-- `Io`. -/
  | io (error : E)
  /-- `Capacity`. -/
  | capacity
  /-- `Protocol`, `Utf8` and the others. -/
  | other (message : String)

/-- `map_ws_error` of the native end. -/
def mapWsError {E : Type} : WsError E → TransportError E
  | .connectionClosed => .connectionClosed
  | .alreadyClosed => .connectionClosed
  | .io error => .ioError error
  | .capacity => .sizeExceeded
  | .other _ => .invalidMessage

/-- The branches of the native `read_binary_frame`. -/
def wsVerdict {E : Type} : Except (WsError E) WsMessage → Verdict E
  | .error error => .failed (mapWsError error)
  | .ok (.binary payload) => .envelope payload
  | .ok (.close _) => .failed .connectionClosed
  | .ok _ => .skipped

/-- `tokio-tungstenite`. -/
def native (E : Type) : Framing E where
  Item := Except (WsError E) WsMessage
  SinkError := WsError E
  verdict := wsVerdict
  binary payload := .ok (.binary payload)
  mapError := mapWsError
  verdict_binary _ := rfl

/-! ### The end of a browser -/

/-- `gloo_net::websocket::Message`. -/
inductive GlooMessage
  /-- `Bytes`. -/
  | bytes (payload : Octets)
  /-- `Text`. -/
  | text (text : String)
  deriving DecidableEq, Repr

/-- `gloo_net::websocket::WebSocketError`. -/
inductive WebSocketError
  /-- `ConnectionError`. -/
  | connectionError
  /-- `ConnectionClose`. -/
  | connectionClose (code : ℕ)
  /-- `MessageSendError`. -/
  | messageSendError (message : String)
  deriving DecidableEq, Repr

/-- `map_ws_error` of a browser. -/
def mapWebSocketError {E : Type} : WebSocketError → TransportError E
  | .connectionClose _ => .connectionClosed
  | _ => .invalidMessage

/-- The branches of a browser's `read_binary_frame`. -/
def glooVerdict {E : Type} : Except WebSocketError GlooMessage → Verdict E
  | .error error => .failed (mapWebSocketError error)
  | .ok (.bytes payload) => .envelope payload
  | .ok (.text _) => .skipped

/-- `gloo-net`. -/
def browser (E : Type) : Framing E where
  Item := Except WebSocketError GlooMessage
  SinkError := WebSocketError
  verdict := glooVerdict
  binary payload := .ok (.bytes payload)
  mapError := mapWebSocketError
  verdict_binary _ := rfl

/-! ### A read -/

section

variable {E : Type} {F : Framing E}

/-- An envelope against the ceiling of its read. -/
def judge {E : Type} (cap : ℕ) (payload : Octets) : Except (TransportError E) Octets :=
  if payload.length > cap then .error .sizeExceeded else .ok payload

/-- The loop of `read_binary_frame` over the items that are there: how the read settles, if it does,
and the items that are left. -/
def readBinaryFrame (F : Framing E) (cap : ℕ) (ended : Bool) :
    List F.Item → Option (Except (TransportError E) Octets) × List F.Item
  | [] => (if ended then some (.error .connectionClosed) else none, [])
  | item :: items =>
      match F.verdict item with
      | .envelope payload => (some (judge cap payload), items)
      | .failed error => (some (.error error), items)
      | .skipped => readBinaryFrame F cap ended items

/-- The envelope of an item. -/
def Verdict.payload? : Verdict E → Option Octets
  | .envelope payload => some payload
  | _ => none

/-- The envelopes among the items of a stream. -/
def envelopes (F : Framing E) (items : List F.Item) : List Octets :=
  items.filterMap fun item => (F.verdict item).payload?

theorem envelopes_append (front back : List F.Item) :
    envelopes F (front ++ back) = envelopes F front ++ envelopes F back :=
  List.filterMap_append

@[simp] theorem envelopes_binary (payload : Octets) : envelopes F [F.binary payload] = [payload] := by
  simp [envelopes, F.verdict_binary, Verdict.payload?]

theorem envelopes_cons {item : F.Item} {items : List F.Item} :
    envelopes F (item :: items) = (F.verdict item).payload?.toList ++ envelopes F items := by
  unfold envelopes
  rw [List.filterMap_cons]
  cases (F.verdict item).payload? with
  | none => rfl
  | some payload => rfl

/-- **What a read does to the items**: it waits over none but skipped ones, takes the first
envelope, or fails, and then no envelope is gone. -/
theorem readBinaryFrame_cases (cap : ℕ) (ended : Bool) (items : List F.Item) :
    ((readBinaryFrame F cap ended items).1 = none ∧ ended = false ∧
      (∀ item ∈ items, F.verdict item = .skipped) ∧ (readBinaryFrame F cap ended items).2 = []) ∨
    (∃ payload, (readBinaryFrame F cap ended items).1 = some (judge cap payload) ∧
      envelopes F items = payload :: envelopes F (readBinaryFrame F cap ended items).2) ∨
    ∃ error, (readBinaryFrame F cap ended items).1 = some (.error error) ∧
      envelopes F items = envelopes F (readBinaryFrame F cap ended items).2 := by
  induction items with
  | nil =>
    cases ended with
    | false => exact .inl ⟨rfl, rfl, by simp, rfl⟩
    | true => exact .inr (.inr ⟨.connectionClosed, rfl, rfl⟩)
  | cons item items ih =>
    rw [readBinaryFrame, envelopes_cons]
    cases hv : F.verdict item with
    | envelope payload => exact .inr (.inl ⟨payload, rfl, rfl⟩)
    | failed error => exact .inr (.inr ⟨error, rfl, rfl⟩)
    | skipped =>
      dsimp only [Verdict.payload?, Option.toList_none, List.nil_append]
      rcases ih with ⟨hnone, hended, hskipped, hrest⟩ | htook | hfailed
      · refine .inl ⟨hnone, hended, ?_, hrest⟩
        intro i hi
        rcases List.mem_cons.1 hi with rfl | hi
        · exact hv
        · exact hskipped i hi
      · exact .inr (.inl htook)
      · exact .inr (.inr hfailed)

/-- Two libraries whose items are taken alike read alike. -/
theorem readBinaryFrame_congr {G : Framing E} (cap : ℕ) (ended : Bool) :
    ∀ {items : List F.Item} {items' : List G.Item},
      items.map F.verdict = items'.map G.verdict →
        (readBinaryFrame F cap ended items).1 = (readBinaryFrame G cap ended items').1 ∧
          (readBinaryFrame F cap ended items).2.map F.verdict =
            (readBinaryFrame G cap ended items').2.map G.verdict
  | [], [], _ => ⟨rfl, rfl⟩
  | item :: items, item' :: items', h => by
    obtain ⟨hitem, hitems⟩ := List.cons.inj h
    rw [readBinaryFrame, readBinaryFrame, ← hitem]
    cases F.verdict item with
    | envelope payload => exact ⟨rfl, hitems⟩
    | failed error => exact ⟨rfl, hitems⟩
    | skipped => exact readBinaryFrame_congr cap ended hitems

end

/-! ### An end of a connection -/

/-- `WsStream` or `GlooStream`, or both its halves. -/
structure Endpoint {E : Type} (F : Framing E) where
  /-- The items that are there to be read. -/
  items : List F.Item
  /-- The stream has ended after them. -/
  ended : Bool
  /-- The ceiling of the read that waits. -/
  reading : Option ℕ
  /-- It was taken apart by `into_split`. -/
  split : Bool
  /-- `alive`. -/
  alive : Bool
  /-- The reads that settled, with their ceilings. -/
  reads : List (ℕ × Except (TransportError E) Octets)
  /-- The writes that settled. -/
  writes : List (Except (TransportError E) Unit)
  /-- Whether the reads and writes before it was taken apart went through. -/
  outcomes : List Bool

/-- What may happen at an end. -/
inductive EndpointAction {E : Type} (F : Framing E)
  /-- `read_frame`. -/
  | read (cap : ℕ)
  /-- The read is polled. -/
  | poll
  /-- The read is given up: its future is dropped. -/
  | cancel
  /-- `write_frame`: whether the envelope reached the connection, and what the sink settles with,
  unless the write is given up. -/
  | write (buffer : Octets) (sent : Bool) (outcome : Option (Except F.SinkError Unit))
  /-- The next envelope on the connection arrives. -/
  | arrive
  /-- Anything but an envelope arrives. -/
  | noise (item : F.Item)
  /-- The stream ends. -/
  | finish
  /-- `into_split`. -/
  | split

namespace Endpoint

variable {E : Type} {F : Framing E}

/-- A new one: `new`, or `from`. -/
def new (F : Framing E) : Endpoint F where
  items := []
  ended := false
  reading := none
  split := false
  alive := true
  reads := []
  writes := []
  outcomes := []

/-- `is_ok`. -/
def isOk {Y A : Type} : Except Y A → Bool
  | .ok _ => true
  | .error _ => false

/-- `settle`; the halves have none. -/
def settle (e : Endpoint F) (through : Bool) : Endpoint F :=
  if e.split then e
  else { e with alive := e.alive && through, outcomes := e.outcomes ++ [through] }

/-- `write_frame`, settled or given up. -/
def written (e : Endpoint F) : Option (Except (TransportError E) Unit) → Endpoint F
  | some outcome => { e with writes := e.writes ++ [outcome] }.settle (isOk outcome)
  | none => e

/-- One step, with the envelopes that are on their way to it, and the one it sends. -/
def step (e : Endpoint F) (wire : List Octets) :
    EndpointAction F → Option (Endpoint F × List Octets × Option Octets)
  | .read cap =>
      if e.reading = none then some ({ e with reading := some cap }, wire, none) else none
  | .poll =>
      match e.reading with
      | none => none
      | some cap =>
          match readBinaryFrame F cap e.ended e.items with
          | (none, items) => some ({ e with items := items }, wire, none)
          | (some outcome, items) =>
              some ({ e with
                items := items
                reading := none
                reads := e.reads ++ [(cap, outcome)] }.settle (isOk outcome), wire, none)
  | .cancel => if e.reading.isSome then some ({ e with reading := none }, wire, none) else none
  | .write buffer sent outcome =>
      -- `&mut self` until the halves are apart
      if (e.split = true ∨ e.reading = none) ∧ (sent || (outcome.map isOk != some true)) = true then
        some (e.written (outcome.map (Except.mapError F.mapError)), wire,
          if sent then some buffer else none)
      else none
  | .arrive =>
      match wire with
      | buffer :: wire =>
          if e.ended then none
          else some ({ e with items := e.items ++ [F.binary buffer] }, wire, none)
      | [] => none
  | .noise item =>
      if e.ended = false ∧ (F.verdict item).payload? = none then
        some ({ e with items := e.items ++ [item] }, wire, none)
      else none
  | .finish => some ({ e with ended := true }, wire, none)
  | .split => if e.reading = none then some ({ e with split := true }, wire, none) else none

end Endpoint

/-! ### What the reads took -/

/-- The reads of an end against the envelopes they took: each read took one, and judged it by its
ceiling, or failed and took none. -/
inductive Reads {E : Type} : List (ℕ × Except (TransportError E) Octets) → List Octets → Prop
  /-- No read. -/
  | nil : Reads [] []
  /-- One more, with its envelope. -/
  | took {reads : List (ℕ × Except (TransportError E) Octets)} {taken : List Octets} (cap : ℕ)
      (payload : Octets) : Reads reads taken →
        Reads (reads ++ [(cap, judge cap payload)]) (taken ++ [payload])
  /-- One more that failed. -/
  | failed {reads : List (ℕ × Except (TransportError E) Octets)} {taken : List Octets} (cap : ℕ)
      (error : TransportError E) : Reads reads taken → Reads (reads ++ [(cap, .error error)]) taken

/-- What the reads settled with. -/
def values {E : Type} (reads : List (ℕ × Except (TransportError E) Octets)) : List Octets :=
  reads.filterMap fun read => read.2.toOption

section

variable {E : Type} {reads : List (ℕ × Except (TransportError E) Octets)} {taken : List Octets}

theorem judge_toOption (cap : ℕ) (payload : Octets) :
    (judge cap payload : Except (TransportError E) Octets).toOption =
      if payload.length ≤ cap then some payload else none := by
  unfold judge
  by_cases h : payload.length ≤ cap
  · rw [if_neg (by omega), if_pos h]
    rfl
  · rw [if_pos (by omega), if_neg h]
    rfl

/-- A read gives out an envelope that is under its ceiling. -/
theorem Reads.bounded (h : Reads reads taken) {cap : ℕ} {payload : Octets}
    (hread : (cap, .ok payload) ∈ reads) : payload.length ≤ cap := by
  induction h with
  | nil => cases hread
  | took c p _ ih =>
    rcases List.mem_append.1 hread with hread | hread
    · exact ih hread
    · have hlast := List.mem_singleton.1 hread
      unfold judge at hlast
      split at hlast
      · cases hlast
      · cases hlast
        omega
  | failed c error _ ih =>
    rcases List.mem_append.1 hread with hread | hread
    · exact ih hread
    · cases List.mem_singleton.1 hread

/-- What the reads give out lies in order among what they took. -/
theorem Reads.sublist (h : Reads reads taken) : (values reads).Sublist taken := by
  unfold values
  induction h with
  | nil => exact .slnil
  | took c p _ ih =>
    rw [List.filterMap_append]
    refine ih.append ?_
    rw [List.filterMap_cons, judge_toOption]
    by_cases hp : p.length ≤ c
    · rw [if_pos hp]
      exact List.Sublist.refl _
    · rw [if_neg hp]
      exact List.nil_sublist _
  | failed c error _ ih =>
    rw [List.filterMap_append]
    simpa [Except.toOption] using ih

/-- Where no read failed, they gave out all they took. -/
theorem Reads.all (h : Reads reads taken) (hok : ∀ read ∈ reads, Endpoint.isOk read.2 = true) :
    values reads = taken := by
  unfold values
  induction h with
  | nil => rfl
  | took c p _ ih =>
    rw [List.filterMap_append, ih fun read hread => hok read (List.mem_append_left _ hread)]
    have hlast := hok (c, judge c p) (List.mem_append_right _ (List.mem_singleton.2 rfl))
    have hp : p.length ≤ c := by
      by_contra hp
      simp [judge, Endpoint.isOk, Nat.lt_of_not_le hp] at hlast
    rw [List.filterMap_cons, judge_toOption, if_pos hp, List.filterMap_nil]
  | failed c error _ ih =>
    have hlast := hok (c, .error error) (List.mem_append_right _ (List.mem_singleton.2 rfl))
    cases hlast

end

/-! ### A connection -/

/-- Two ends of one connection. -/
structure Link {E : Type} (F G : Framing E) where
  /-- One end. -/
  left : Endpoint F
  /-- The other. -/
  right : Endpoint G
  /-- The envelopes on their way from the left. -/
  rightward : List Octets
  /-- And from the right. -/
  leftward : List Octets
  /-- The envelopes the left end has sent. -/
  sentLeft : List Octets
  /-- And the right end. -/
  sentRight : List Octets

/-- What may happen. -/
inductive LinkAction {E : Type} (F G : Framing E)
  /-- At the left end. -/
  | left (action : EndpointAction F)
  /-- At the right end. -/
  | right (action : EndpointAction G)

/-- One direction: **every envelope that was sent was taken, is at the end, or is on its way**. -/
structure Carries {E : Type} {F : Framing E} (sent wire : List Octets) (e : Endpoint F) : Prop where
  /-- In the order they were sent. -/
  taken : ∃ taken, Reads e.reads taken ∧ sent = taken ++ envelopes F e.items ++ wire
  /-- `is_alive`, until the end is taken apart. -/
  alive : e.alive = true ↔ ∀ through ∈ e.outcomes, through = true
  /-- Where it was not taken apart, these are its reads and writes. -/
  outcomes : e.split = false → ∀ through, through ∈ e.outcomes ↔
    (∃ read ∈ e.reads, Endpoint.isOk read.2 = through) ∨
      ∃ write ∈ e.writes, Endpoint.isOk write = through

namespace Endpoint

variable {E : Type} {F : Framing E}

@[simp] theorem settle_items (e : Endpoint F) (through : Bool) :
    (e.settle through).items = e.items := by
  unfold settle
  split <;> rfl

@[simp] theorem settle_reads (e : Endpoint F) (through : Bool) :
    (e.settle through).reads = e.reads := by
  unfold settle
  split <;> rfl

@[simp] theorem settle_writes (e : Endpoint F) (through : Bool) :
    (e.settle through).writes = e.writes := by
  unfold settle
  split <;> rfl

@[simp] theorem settle_split (e : Endpoint F) (through : Bool) :
    (e.settle through).split = e.split := by
  unfold settle
  split <;> rfl

/-- `settle` keeps the latch. -/
theorem settle_alive {e : Endpoint F} (through : Bool)
    (h : e.alive = true ↔ ∀ b ∈ e.outcomes, b = true) :
    (e.settle through).alive = true ↔ ∀ b ∈ (e.settle through).outcomes, b = true := by
  unfold settle
  split
  · exact h
  · simp only [Bool.and_eq_true, h, List.mem_append, List.mem_singleton]
    constructor
    · rintro ⟨hall, hthrough⟩ b (hb | rfl)
      · exact hall b hb
      · exact hthrough
    · intro hall
      exact ⟨fun b hb => hall b (.inl hb), hall through (.inr rfl)⟩

theorem settle_outcomes {e : Endpoint F} {through : Bool} (hsplit : e.split = false) :
    (e.settle through).outcomes = e.outcomes ++ [through] := by
  simp [settle, hsplit]

end Endpoint

section

variable {E : Type} {F : Framing E} {sent wire : List Octets} {e : Endpoint F}

/-- A read settles. -/
theorem Carries.settled (h : Carries sent wire e) (cap : ℕ)
    (outcome : Except (TransportError E) Octets) (items : List F.Item)
    (htaken : (∃ payload, outcome = judge cap payload ∧
        envelopes F e.items = payload :: envelopes F items) ∨
      ∃ error, outcome = .error error ∧ envelopes F e.items = envelopes F items) :
    Carries sent wire ({ e with
      items := items
      reading := none
      reads := e.reads ++ [(cap, outcome)] }.settle (Endpoint.isOk outcome)) := by
  obtain ⟨⟨taken, hreads, hsent⟩, halive, houtcomes⟩ := h
  refine ⟨?_, Endpoint.settle_alive _ halive, ?_⟩
  · rw [Endpoint.settle_reads, Endpoint.settle_items]
    rcases htaken with ⟨payload, rfl, hitems⟩ | ⟨error, rfl, hitems⟩
    · refine ⟨taken ++ [payload], hreads.took cap payload, ?_⟩
      rw [hsent, hitems]
      simp
    · refine ⟨taken, hreads.failed cap error, ?_⟩
      rw [hsent, hitems]
  · intro hsplit through
    rw [Endpoint.settle_split] at hsplit
    rw [Endpoint.settle_outcomes hsplit, Endpoint.settle_reads, Endpoint.settle_writes]
    dsimp only
    rw [List.mem_append, houtcomes hsplit]
    simp only [List.mem_append, List.mem_singleton, or_and_right, exists_or, exists_eq_left]
    constructor
    · rintro ((hr | hw) | hnew)
      · exact .inl (.inl hr)
      · exact .inr hw
      · exact .inl (.inr hnew.symm)
    · rintro ((hr | hnew) | hw)
      · exact .inl (.inl hr)
      · exact .inr hnew.symm
      · exact .inl (.inr hw)

/-- A write settles, or is given up. -/
theorem Carries.written (h : Carries sent wire e)
    (outcome : Option (Except (TransportError E) Unit)) : Carries sent wire (e.written outcome) := by
  cases outcome with
  | none => exact h
  | some outcome =>
    obtain ⟨htaken, halive, houtcomes⟩ := h
    refine ⟨?_, Endpoint.settle_alive _ halive, ?_⟩
    · rw [Endpoint.written, Endpoint.settle_reads, Endpoint.settle_items]
      exact htaken
    · intro hsplit through
      rw [Endpoint.written, Endpoint.settle_split] at hsplit
      rw [Endpoint.written, Endpoint.settle_outcomes hsplit, Endpoint.settle_reads,
        Endpoint.settle_writes]
      dsimp only
      rw [List.mem_append, houtcomes hsplit]
      simp only [List.mem_append, List.mem_singleton, or_and_right, exists_or, exists_eq_left]
      constructor
      · rintro ((hr | hw) | hnew)
        · exact .inl hr
        · exact .inr (.inl hw)
        · exact .inr (.inr hnew.symm)
      · rintro (hr | hw | hnew)
        · exact .inl (.inl hr)
        · exact .inl (.inr hw)
        · exact .inr hnew.symm

/-- **A step of the end.** -/
theorem Carries.step (h : Carries sent wire e) {a : EndpointAction F} {e' : Endpoint F}
    {wire' : List Octets} {emitted : Option Octets}
    (hstep : e.step wire a = some (e', wire', emitted)) : Carries sent wire' e' := by
  cases a with
  | read cap =>
    simp only [Endpoint.step] at hstep
    split at hstep
    · cases hstep
      exact ⟨h.taken, h.alive, h.outcomes⟩
    · cases hstep
  | poll =>
    simp only [Endpoint.step] at hstep
    split at hstep
    · cases hstep
    · next cap hcap =>
      have hcases := readBinaryFrame_cases (F := F) cap e.ended e.items
      split at hstep
      · next items hread =>
        cases hstep
        rw [hread] at hcases
        rcases hcases with ⟨-, -, hskipped, hitems⟩ | ⟨_, hnone, -⟩ | ⟨_, hnone, -⟩
        · -- what was skipped held no envelope
          have hempty : envelopes F e.items = [] := by
            refine List.filterMap_eq_nil_iff.2 fun item hitem => ?_
            rw [hskipped item hitem]
            rfl
          obtain ⟨⟨taken, hreads, hsent⟩, halive, houtcomes⟩ := h
          refine ⟨⟨taken, hreads, ?_⟩, halive, houtcomes⟩
          rw [hsent, hempty]
          dsimp only at hitems ⊢
          rw [hitems]
          rfl
        · cases hnone
        · cases hnone
      · next outcome items hread =>
        cases hstep
        rw [hread] at hcases
        refine h.settled cap outcome items ?_
        rcases hcases with ⟨hnone, -⟩ | ⟨payload, houtcome, hitems⟩ | ⟨error, houtcome, hitems⟩
        · cases hnone
        · cases houtcome
          exact .inl ⟨payload, rfl, hitems⟩
        · cases houtcome
          exact .inr ⟨error, rfl, hitems⟩
  | cancel =>
    simp only [Endpoint.step] at hstep
    split at hstep
    · cases hstep
      exact ⟨h.taken, h.alive, h.outcomes⟩
    · cases hstep
  | write buffer sent outcome =>
    simp only [Endpoint.step] at hstep
    split at hstep
    · cases hstep
      exact h.written _
    · cases hstep
  | arrive =>
    simp only [Endpoint.step] at hstep
    split at hstep
    · split at hstep
      · cases hstep
      · cases hstep
        obtain ⟨⟨taken, hreads, hsent⟩, halive, houtcomes⟩ := h
        refine ⟨⟨taken, hreads, ?_⟩, halive, houtcomes⟩
        rw [hsent, envelopes_append, envelopes_binary]
        simp
    · cases hstep
  | noise item =>
    simp only [Endpoint.step] at hstep
    split at hstep
    · next hnoise =>
      cases hstep
      obtain ⟨⟨taken, hreads, hsent⟩, halive, houtcomes⟩ := h
      refine ⟨⟨taken, hreads, ?_⟩, halive, houtcomes⟩
      rw [hsent, envelopes_append]
      simp [envelopes, hnoise.2]
    · cases hstep
  | finish =>
    cases hstep
    exact ⟨h.taken, h.alive, h.outcomes⟩
  | split =>
    simp only [Endpoint.step] at hstep
    split at hstep
    · cases hstep
      exact ⟨h.taken, h.alive, fun hsplit => by cases hsplit⟩
    · cases hstep

/-- One more envelope is sent. -/
theorem Carries.emit (h : Carries sent wire e) (emitted : List Octets) :
    Carries (sent ++ emitted) (wire ++ emitted) e := by
  obtain ⟨⟨taken, hreads, hsent⟩, halive, houtcomes⟩ := h
  refine ⟨⟨taken, hreads, ?_⟩, halive, houtcomes⟩
  rw [hsent]
  simp

end

namespace Link

variable {E : Type} {F G : Framing E}

/-- A connection that was just made. -/
def connect (F G : Framing E) : Link F G where
  left := .new F
  right := .new G
  rightward := []
  leftward := []
  sentLeft := []
  sentRight := []

/-- One step. -/
def step (s : Link F G) : LinkAction F G → Option (Link F G)
  | .left a => (s.left.step s.leftward a).map fun (e, wire, emitted) =>
      { s with
        left := e
        leftward := wire
        rightward := s.rightward ++ emitted.toList
        sentLeft := s.sentLeft ++ emitted.toList }
  | .right a => (s.right.step s.rightward a).map fun (e, wire, emitted) =>
      { s with
        right := e
        rightward := wire
        leftward := s.leftward ++ emitted.toList
        sentRight := s.sentRight ++ emitted.toList }

theorem carries_new : Carries [] [] (Endpoint.new F) :=
  ⟨⟨[], .nil, rfl⟩, by simp [Endpoint.new], fun _ through => by simp [Endpoint.new]⟩

/-- **Both directions, over a run.** -/
theorem carries_of_reachable {s : Link F G} (h : Reachable Link.step (.connect F G) s) :
    Carries s.sentLeft s.rightward s.right ∧ Carries s.sentRight s.leftward s.left := by
  refine Reaches.invariant (I := fun s : Link F G => Carries s.sentLeft s.rightward s.right ∧
    Carries s.sentRight s.leftward s.left) ⟨carries_new, carries_new⟩ ?_ h
  rintro s a s' - ⟨hright, hleft⟩ - hstep
  cases a with
  | left a =>
    obtain ⟨⟨e, wire, emitted⟩, he, rfl⟩ := Option.map_eq_some_iff.1 hstep
    exact ⟨hright.emit emitted.toList, hleft.step he⟩
  | right a =>
    obtain ⟨⟨e, wire, emitted⟩, he, rfl⟩ := Option.map_eq_some_iff.1 hstep
    exact ⟨hright.step he, hleft.emit emitted.toList⟩

end Link

/-- What a reader may count on. -/
structure Delivered {E : Type} {F : Framing E} (sent wire : List Octets) (e : Endpoint F) :
    Prop where
  /-- What it was given lies in order among what was sent. -/
  ordered : (values e.reads).Sublist sent
  /-- Nothing it was given is over the ceiling it had set. -/
  bounded : ∀ cap payload, (cap, .ok payload) ∈ e.reads → payload.length ≤ cap
  /-- Until a read fails, everything sent was given to it, waits for it or is on its way. -/
  all : (∀ read ∈ e.reads, Endpoint.isOk read.2 = true) →
    sent = values e.reads ++ envelopes F e.items ++ wire
  /-- `is_alive` tells whether a read or a write has failed. -/
  alive : e.split = false → (e.alive = true ↔
    (∀ read ∈ e.reads, Endpoint.isOk read.2 = true) ∧
      ∀ write ∈ e.writes, Endpoint.isOk write = true)
  /-- A read does not wait over an envelope, a failure or the end. -/
  settles : ∀ cap, e.reading = some cap →
    (e.ended = true ∨ ∃ item ∈ e.items, F.verdict item ≠ .skipped) →
      ∃ e', e.step wire .poll = some (e', wire, none) ∧ e'.reading = none

theorem Carries.delivered {E : Type} {F : Framing E} {sent wire : List Octets} {e : Endpoint F}
    (h : Carries sent wire e) : Delivered sent wire e := by
  obtain ⟨⟨taken, hreads, hsent⟩, halive, houtcomes⟩ := h
  refine ⟨?_, fun _ _ => hreads.bounded, fun hok => by rw [hreads.all hok, hsent], ?_, ?_⟩
  · rw [hsent, List.append_assoc]
    exact hreads.sublist.trans (List.sublist_append_left _ _)
  · intro hsplit
    rw [halive]
    constructor
    · intro hall
      exact ⟨fun read hread => hall _ ((houtcomes hsplit _).2 (.inl ⟨read, hread, rfl⟩)),
        fun write hwrite => hall _ ((houtcomes hsplit _).2 (.inr ⟨write, hwrite, rfl⟩))⟩
    · rintro ⟨hr, hw⟩ through hthrough
      rcases (houtcomes hsplit through).1 hthrough with ⟨read, hread, rfl⟩ | ⟨write, hwrite, rfl⟩
      · exact hr read hread
      · exact hw write hwrite
  · intro cap hcap hready
    cases hread : readBinaryFrame F cap e.ended e.items with
    | mk outcome items =>
      cases outcome with
      | none =>
        have hcases := readBinaryFrame_cases (F := F) cap e.ended e.items
        rw [hread] at hcases
        rcases hcases with ⟨-, hended, hskipped, -⟩ | ⟨_, hnone, -⟩ | ⟨_, hnone, -⟩
        · rcases hready with htrue | ⟨item, hitem, hne⟩
          · rw [hended] at htrue
            cases htrue
          · exact absurd (hskipped item hitem) hne
        · cases hnone
        · cases hnone
      | some outcome =>
        refine ⟨_, by simp only [Endpoint.step, hcap, hread]; rfl, ?_⟩
        unfold Endpoint.settle
        split <;> rfl

/-- **Envelopes over a connection** are not lost, doubled or overtaken, whichever libraries are at
its ends and however reads, writes, reads given up and other frames interleave; a poll goes the same
way at either end where the libraries yield the same. -/
theorem link_faithful {E : Type} {F G : Framing E} {s : Link F G}
    (h : Reachable Link.step (.connect F G) s) :
    Delivered s.sentLeft s.rightward s.right ∧ Delivered s.sentRight s.leftward s.left ∧
      ∀ (cap : ℕ) (ended : Bool) (items : List F.Item) (items' : List G.Item),
        items.map F.verdict = items'.map G.verdict →
          (readBinaryFrame F cap ended items).1 = (readBinaryFrame G cap ended items').1 := by
  obtain ⟨hright, hleft⟩ := Link.carries_of_reachable h
  exact ⟨hright.delivered, hleft.delivered, fun cap ended _ _ hsame =>
    (readBinaryFrame_congr cap ended hsame).1⟩

namespace Small

/-- A browser writes twice; the native end skips a ping, gives one read up, takes the first envelope
and finds the second over its ceiling. -/
theorem link_over_ceiling : ∃ s : Link (browser Unit) (native Unit),
    Delivered s.sentLeft s.rightward s.right ∧ values s.right.reads = [[1]] ∧
      s.sentLeft = [[1], [2, 3]] ∧ s.right.alive = false := by
  have hreach := (@Reaches.start _ _ (@Link.step Unit (browser Unit) (native Unit))
      (fun _ _ => True) (.connect _ _))
    |>.next (a := .left (.write [1] true (some (.ok ())))) trivial rfl
    |>.next (a := .right (.read 1)) trivial rfl
    |>.next (a := .right (.noise (.ok (.ping [])))) trivial rfl
    |>.next (a := .right .poll) trivial rfl |>.next (a := .right .cancel) trivial rfl
    |>.next (a := .right .arrive) trivial rfl |>.next (a := .right (.read 1)) trivial rfl
    |>.next (a := .left (.write [2, 3] true (some (.ok ())))) trivial rfl
    |>.next (a := .right .poll) trivial rfl |>.next (a := .right .arrive) trivial rfl
    |>.next (a := .right (.read 1)) trivial rfl |>.next (a := .right .poll) trivial rfl
  exact ⟨_, (link_faithful hreach).1, rfl, rfl, rfl⟩

end Small

end Ws
end TightbeamExt
