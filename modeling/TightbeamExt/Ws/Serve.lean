import TightbeamExt.Client.Manager
import TightbeamExt.Ws.Streaming
import TightbeamExt.Ws.Work

/-!
# Serving the streams a peer opens

A client serves the streams of its peer with one handler in one of three modes.  The claim is made
twice, in TypeScript and behind it in wasm, and the responder is consumed by the first call; later
calls of the same mode only replace the handler in its slot.  A stream is handed to whatever is in
the slot when the responder dispatches it.

The handler is the application's.  What it settles with is chosen by the environment, and answered
to the peer as the code does.

## Main definitions

* `respondViaJs`, `respondStreamingViaJs`, `respondDuplexViaJs` — what the peer is answered.
* `TightbeamWsClient`, `TightbeamWsClient.step` — a client that is told to serve, with the streams
  of its peer.

## Main results

* `answer_ok_iff` — when a stream is answered `Ok`.
* `serving_of_reachable` — **the two claims agree, and a stream is answered by the handler that was
  in force when it was dispatched.**
* `settled_of_reachable` — **the answer is the one to what that handler settled with.**
-/

namespace TightbeamExt
namespace Ws

open Asn (Js Octets Runtime)
open Client (ServeMode ServeError)
open Transition

/-! ### Answers -/

/-- `status_from_code`.  A rejection cannot claim success. -/
def statusFromCode : String → TransitStatus
  | "Cancelled" => .cancelled
  | "InvalidArgument" => .invalidArgument
  | "DeadlineExceeded" => .deadlineExceeded
  | "NotFound" => .notFound
  | "AlreadyExists" => .alreadyExists
  | "PermissionDenied" => .permissionDenied
  | "ResourceExhausted" => .resourceExhausted
  | "FailedPrecondition" => .failedPrecondition
  | "Aborted" => .aborted
  | "OutOfRange" => .outOfRange
  | "Unimplemented" => .unimplemented
  | "Internal" => .internal
  | "Unavailable" => .unavailable
  | "DataLoss" => .dataLoss
  | "Unauthenticated" => .unauthenticated
  | _ => .unknown

/-- `TransitCode`: the name of a status. -/
def TransitStatus.code : TransitStatus → String
  | .ok => "Ok"
  | .cancelled => "Cancelled"
  | .unknown => "Unknown"
  | .invalidArgument => "InvalidArgument"
  | .deadlineExceeded => "DeadlineExceeded"
  | .notFound => "NotFound"
  | .alreadyExists => "AlreadyExists"
  | .permissionDenied => "PermissionDenied"
  | .resourceExhausted => "ResourceExhausted"
  | .failedPrecondition => "FailedPrecondition"
  | .aborted => "Aborted"
  | .outOfRange => "OutOfRange"
  | .unimplemented => "Unimplemented"
  | .internal => "Internal"
  | .unavailable => "Unavailable"
  | .dataLoss => "DataLoss"
  | .unauthenticated => "Unauthenticated"

/-- Every status but `Ok` is read back from its name. -/
theorem statusFromCode_code {status : TransitStatus} (h : status ≠ .ok) :
    statusFromCode status.code = status := by
  cases status <;> first | rfl | exact absurd rfl h

theorem statusFromCode_ne_ok (name : String) : statusFromCode name ≠ .ok := by
  unfold statusFromCode
  split <;> simp

/-- `refusal_for`, and `refusal_status`: what a rejection answers. -/
def refusalFor (R : Runtime) (rejection : Js) : TransitStatus :=
  match (Js.get R rejection "code").bind Asn.asString with
  | .ok name => statusFromCode (String.ofList name)
  | .error _ => .unknown

theorem refusalFor_ne_ok (R : Runtime) (rejection : Js) : refusalFor R rejection ≠ .ok := by
  unfold refusalFor
  split
  · exact statusFromCode_ne_ok _
  · simp

/-- `to_js`. -/
def toJs (message : List Char) : Js := Js.text message

/-- A rejection that is a mere text has no code. -/
theorem refusalFor_toJs (R : Runtime) (message : List Char) :
    refusalFor R (toJs message) = .unknown := rfl

/-- The codecs on both sides of the boundary: `F` are the frames of the library, `G` those of the
client. -/
structure FrameGlue (F G : Type) where
  /-- `to_der`. -/
  toDer : F → Except (List Char) Octets
  /-- `Frame::from_der`. -/
  fromDer : Octets → Except (List Char) F
  /-- `Frame.fromDer` of the client. -/
  parse : Octets → Except Js G
  /-- `toDer` of the client. -/
  der : G → Octets

/-- `ResponsePackage`. -/
structure ResponsePackage (F : Type) where
  /-- The status. -/
  status : TransitStatus
  /-- The response. -/
  message : Option F
  deriving DecidableEq

section

variable {F G : Type} (R : Runtime) (L : FrameGlue F G)

/-- The handler `serve` installs, once the application's handler settled. -/
def respond (settled : Except Js (Option G)) (requestDer : Octets) : Except Js (Option Octets) := do
  let _request ← L.parse requestDer
  let response ← settled
  pure (response.map L.der)

/-- `call_handler`, and `call_streaming_handler` after its call. -/
def readResponse (settled : Option Octets) : Except Js (ResponsePackage F) :=
  match settled with
  | none => .ok ⟨.ok, none⟩
  | some der => (L.fromDer der).mapError toJs |>.map fun response => ⟨.ok, some response⟩

/-- `respond_via_js`. -/
def respondViaJs (frame : F) (settled : Except Js (Option G)) : ResponsePackage F :=
  let called := do
    let der ← (L.toDer frame).mapError toJs
    let response ← respond L settled der
    readResponse L response
  match called with
  | .ok response => response
  | .error rejection => ⟨refusalFor R rejection, none⟩

/-- `respond_streaming_via_js`: no rejection is read. -/
def respondStreamingViaJs (settled : Except Js (Option G)) : ResponsePackage F :=
  match settled.bind fun response => readResponse L (response.map L.der) with
  | .ok response => response
  | .error _ => ⟨.unknown, none⟩

/-- `call_duplex_handler` after its call. -/
def duplexStatus : Option (List UInt16) → TransitStatus
  | none => .ok
  | some label =>
      if String.ofList (Text.scalars label) = "Ok" then .ok
      else statusFromCode (String.ofList (Text.scalars label))

/-- `respond_duplex_via_js`. -/
def respondDuplexViaJs (settled : Except Js (Option (List UInt16))) : TransitStatus :=
  match settled with
  | .ok label => duplexStatus label
  | .error rejection => refusalFor R rejection

end

/-- What the peer opens. -/
inductive Incoming (F : Type)
  /-- A stream with one request frame. -/
  | unary (frame : F)
  /-- A stream with a progressive body. -/
  | streaming
  /-- A duplex stream. -/
  | duplex
  deriving DecidableEq

/-- The mode that serves it. -/
def Incoming.mode {F : Type} : Incoming F → ServeMode
  | .unary _ => .unary
  | .streaming => .streaming
  | .duplex => .duplex

/-- What an application's handler settles with. -/
inductive Settled (G : Type)
  /-- With a response frame, or without. -/
  | frame (response : Option G)
  /-- With the name of a status, or without. -/
  | status (label : Option (List UInt16))
  /-- It throws or rejects. -/
  | rejected (rejection : Js)

/-- What the peer is answered for it; a handler settles as its type says. -/
def answer {F G : Type} (R : Runtime) (L : FrameGlue F G) :
    Incoming F → Settled G → Option (ResponsePackage F)
  | .unary frame, .frame response => some (respondViaJs R L frame (.ok response))
  | .unary frame, .rejected rejection => some (respondViaJs R L frame (.error rejection))
  | .streaming, .frame response => some (respondStreamingViaJs L (.ok response))
  | .streaming, .rejected rejection => some (respondStreamingViaJs L (.error rejection))
  | .duplex, .status label => some ⟨respondDuplexViaJs R (.ok label), none⟩
  | .duplex, .rejected rejection => some ⟨respondDuplexViaJs R (.error rejection), none⟩
  | _, _ => none

section

variable {F G : Type} {R : Runtime} {L : FrameGlue F G}

theorem readResponse_eq_ok {settled : Option Octets} {p : ResponsePackage F} :
    readResponse L settled = .ok p ↔
      (settled = none ∧ p = ⟨.ok, none⟩) ∨
        ∃ der response, settled = some der ∧ L.fromDer der = .ok response ∧ p = ⟨.ok, some response⟩ := by
  cases settled with
  | none => simp [readResponse, eq_comm]
  | some der =>
    cases hder : L.fromDer der with
    | error message => simp [readResponse, hder, Except.mapError, Except.map]
    | ok response => simp [readResponse, hder, Except.mapError, Except.map, eq_comm]

/-- **When a stream is answered `Ok`**: the handler accepted it, and what it gave back can be
carried.  A stream with a request frame needs its frame carried to the handler, too. -/
def Carried (L : FrameGlue F G) : Incoming F → Settled G → Prop
  | .unary frame, .frame response =>
      (∃ der request, L.toDer frame = .ok der ∧ L.parse der = .ok request) ∧
        ∀ g, response = some g → ∃ f, L.fromDer (L.der g) = .ok f
  | .streaming, .frame response => ∀ g, response = some g → ∃ f, L.fromDer (L.der g) = .ok f
  | .duplex, .status label => ∀ units, label = some units → String.ofList (Text.scalars units) = "Ok"
  | _, _ => False

theorem duplexStatus_eq_ok {label : Option (List UInt16)} :
    duplexStatus label = .ok ↔
      ∀ units, label = some units → String.ofList (Text.scalars units) = "Ok" := by
  cases label with
  | none => simp [duplexStatus]
  | some units =>
    unfold duplexStatus
    split
    · next h => simp [h]
    · next h => simp [h, statusFromCode_ne_ok]

theorem readResponse_isOk {response : Option G} :
    (∃ p, readResponse L (response.map L.der) = .ok p) ↔
      ∀ g, response = some g → ∃ f, L.fromDer (L.der g) = .ok f := by
  cases response with
  | none => simp [readResponse_eq_ok]
  | some g =>
    constructor
    · rintro ⟨p, hp⟩ g' hg
      rcases readResponse_eq_ok.1 hp with ⟨hnone, -⟩ | ⟨der, f, hsome, hf, -⟩
      · cases hnone
      · cases hg
        cases hsome
        exact ⟨f, hf⟩
    · intro h
      obtain ⟨f, hf⟩ := h g rfl
      exact ⟨⟨.ok, some f⟩, readResponse_eq_ok.2 (.inr ⟨_, f, rfl, hf, rfl⟩)⟩

theorem respondViaJs_status {frame : F} {settled : Except Js (Option G)} :
    (respondViaJs R L frame settled).status = .ok ↔
      (∃ der request, L.toDer frame = .ok der ∧ L.parse der = .ok request) ∧
        ∃ response p, settled = .ok response ∧ readResponse L (response.map L.der) = .ok p := by
  unfold respondViaJs respond
  cases hder : L.toDer frame with
  | error message => simp [Except.mapError, bind, Except.bind, refusalFor_ne_ok]
  | ok der =>
    cases hparse : L.parse der with
    | error rejection => simp [Except.mapError, bind, Except.bind, hparse, refusalFor_ne_ok]
    | ok request =>
      cases settled with
      | error rejection => simp [Except.mapError, bind, Except.bind, hparse, refusalFor_ne_ok]
      | ok response =>
        simp only [Except.mapError, bind, Except.bind, hparse, pure, Except.pure]
        cases hread : readResponse L (response.map L.der) with
        | error rejection => simp [hread, refusalFor_ne_ok]
        | ok p =>
          have hstatus : p.status = .ok := by
            rcases readResponse_eq_ok.1 hread with ⟨-, rfl⟩ | ⟨_, _, -, -, rfl⟩
            · rfl
            · rfl
          simp [hread, hstatus, hparse]

theorem respondStreamingViaJs_status {settled : Except Js (Option G)} :
    (respondStreamingViaJs L settled).status = .ok ↔
      ∃ response p, settled = .ok response ∧ readResponse L (response.map L.der) = .ok p := by
  unfold respondStreamingViaJs
  cases settled with
  | error rejection => simp [Except.bind]
  | ok response =>
    simp only [Except.bind]
    cases hread : readResponse L (response.map L.der) with
    | error rejection => simp [hread]
    | ok p =>
      have hstatus : p.status = .ok := by
        rcases readResponse_eq_ok.1 hread with ⟨-, rfl⟩ | ⟨_, _, -, -, rfl⟩
        · rfl
        · rfl
      simp [hread, hstatus]

theorem answer_ok_iff {o : Incoming F} {settled : Settled G} {p : ResponsePackage F}
    (h : answer R L o settled = some p) : p.status = .ok ↔ Carried L o settled := by
  cases o with
  | unary frame =>
    cases settled with
    | frame response =>
      cases h
      rw [respondViaJs_status, Carried, ← readResponse_isOk]
      simp
    | rejected rejection =>
      cases h
      rw [respondViaJs_status]
      simp [Carried]
    | status label => cases h
  | streaming =>
    cases settled with
    | frame response =>
      cases h
      rw [respondStreamingViaJs_status, Carried, ← readResponse_isOk]
      simp
    | rejected rejection =>
      cases h
      rw [respondStreamingViaJs_status]
      simp [Carried]
    | status label => cases h
  | duplex =>
    cases settled with
    | status label =>
      cases h
      exact duplexStatus_eq_ok
    | rejected rejection =>
      cases h
      simp [respondDuplexViaJs, Carried, refusalFor_ne_ok]
    | frame response => cases h

end

/-! ### A client that serves -/

/-- `serve_mode_label`. -/
def serveModeLabel : ServeMode → String
  | .unary => "unary"
  | .streaming => "streaming"
  | .duplex => "duplex"

/-- The wasm client: its claim, its handler slot, its responder and the serve loop. -/
structure MuxWsClient (H : Type) where
  /-- The mode on record. -/
  serveMode : Option ServeMode
  /-- The slot; the inert function is `none`. -/
  handler : Option H
  /-- Nobody has taken the responder. -/
  responder : Bool
  /-- The mode of the serve loop, once it was spawned. -/
  loop : Option ServeMode
  deriving DecidableEq

namespace MuxWsClient

variable {H : Type}

/-- `assemble`. -/
def assemble : MuxWsClient H := ⟨none, none, true, none⟩

/-- `claim_serve`. -/
def claimServe (mode : ServeMode) (s : MuxWsClient H) : Except StreamFault (MuxWsClient H) :=
  match s.serveMode with
  | none => .ok { s with serveMode := some mode }
  | some current =>
      if current = mode then .ok s
      else .error (.validation "ServeModeConflict"
        s!"peer serve mode is {serveModeLabel current}. Cannot switch to {serveModeLabel mode} after the responder started")

/-- `serve`, `serve_streaming` and `serve_duplex`. -/
def serve (mode : ServeMode) (handler : H) (s : MuxWsClient H) :
    Except StreamFault (MuxWsClient H) := do
  let s ← s.claimServe mode
  let s := { s with handler := some handler }
  if s.responder then pure { s with responder := false, loop := some mode } else pure s

end MuxWsClient

/-- Why a call of `serve` threw. -/
inductive ServeFault
  /-- `requireLive` or `claimServe`. -/
  | claim (e : ServeError)
  /-- The wasm client. -/
  | socket (fault : StreamFault)
  deriving DecidableEq, Repr

/-- A call of `serve`, `serveStreaming` or `serveDuplex`. -/
structure ServeCall (H : Type) where
  /-- The mode. -/
  mode : ServeMode
  /-- It claims the client exclusively. -/
  exclusive : Bool
  /-- The handler. -/
  handler : H
  /-- How it returned. -/
  result : Except ServeFault Unit

/-- The handler the call installed. -/
def ServeCall.installed {H : Type} (c : ServeCall H) : Option H :=
  match c.result with
  | .ok _ => some c.handler
  | .error _ => none

/-- The handler the calls left in force. -/
def latest {H : Type} (calls : List (ServeCall H)) : Option H :=
  (calls.filterMap ServeCall.installed).getLast?

/-- How far a stream of the peer has come. -/
inductive Served (F G H : Type)
  /-- The responder has not taken it up. -/
  | waiting
  /-- The handler has it, dispatched after so many calls. -/
  | calling (handler : Option H) (calls : ℕ)
  /-- The handler settled, and that was answered. -/
  | answered (handler : Option H) (calls : ℕ) (settled : Settled G) (response : ResponsePackage F)
  /-- The serve loop is not of its mode. -/
  | refused (status : TransitStatus)

/-- The handler a stream was dispatched to, and after how many calls. -/
def Served.by? {F G H : Type} : Served F G H → Option (Option H × ℕ)
  | .calling handler calls => some (handler, calls)
  | .answered handler calls _ _ => some (handler, calls)
  | _ => none

/-- What a stream was answered. -/
def Served.response? {F G H : Type} : Served F G H → Option (ResponsePackage F)
  | .answered _ _ _ response => some response
  | _ => none

/-- A client with the streams of its peer. -/
structure TightbeamWsClient (F G H : Type) where
  /-- What the client has on record. -/
  peer : Client.Peer
  /-- The wasm client. -/
  socket : MuxWsClient H
  /-- The streams the peer opened, in order. -/
  streams : List (Incoming F × Served F G H)
  /-- The calls of `serve`, in order. -/
  calls : List (ServeCall H)

/-- One step of a client. -/
inductive ServeAction (F G H : Type)
  /-- The application calls `serve`, `serveStreaming` or `serveDuplex`. -/
  | serve (mode : ServeMode) (exclusive : Bool) (handler : H)
  /-- The application closes the client. -/
  | close
  /-- The peer opens a stream. -/
  | incoming (o : Incoming F)
  /-- The serve loop takes a stream of its mode up. -/
  | dispatch (i : ℕ)
  /-- It refuses another one, by the default of the library. -/
  | refuse (i : ℕ) (status : TransitStatus)
  /-- A handler settles. -/
  | settle (i : ℕ) (settled : Settled G)

namespace TightbeamWsClient

variable {F G H : Type} (R : Runtime) (L : FrameGlue F G)

/-- A client nobody serves on. -/
def fresh : TightbeamWsClient F G H := ⟨.fresh, .assemble, [], []⟩

/-- `serve`, `serveStreaming` and `serveDuplex`: the claim, then the call on the wasm client. -/
def serve (mode : ServeMode) (exclusive : Bool) (handler : H) (s : TightbeamWsClient F G H) :
    TightbeamWsClient F G H :=
  let called (result : Except ServeFault Unit) : List (ServeCall H) :=
    s.calls ++ [⟨mode, exclusive, handler, result⟩]
  match s.peer.serve mode exclusive with
  | .error e => { s with calls := called (.error (.claim e)) }
  | .ok peer =>
      match s.socket.serve mode handler with
      | .error fault => { s with peer, calls := called (.error (.socket fault)) }
      | .ok socket => { s with peer, socket, calls := called (.ok ()) }

/-- A stream moves on. -/
def become (s : TightbeamWsClient F G H) (i : ℕ) (o : Incoming F) (served : Served F G H) :
    TightbeamWsClient F G H :=
  { s with streams := s.streams.set i (o, served) }

/-- One step. -/
def step (s : TightbeamWsClient F G H) : ServeAction F G H → Option (TightbeamWsClient F G H)
  | .serve mode exclusive handler => some (s.serve mode exclusive handler)
  | .close => some { s with peer := { s.peer with released := true } }
  | .incoming o => some { s with streams := s.streams ++ [(o, .waiting)] }
  | .dispatch i =>
      match s.streams[i]? with
      | some (o, .waiting) =>
          if s.socket.loop = some o.mode then
            some (s.become i o (.calling s.socket.handler s.calls.length))
          else none
      | _ => none
  | .refuse i status =>
      match s.streams[i]?, s.socket.loop with
      | some (o, .waiting), some mode =>
          if mode = o.mode then none else some (s.become i o (.refused status))
      | _, _ => none
  | .settle i settled =>
      match s.streams[i]? with
      | some (o, .calling handler calls) =>
          (answer R L o settled).map fun p => s.become i o (.answered handler calls settled p)
      | _ => none

/-! ### What a call does -/

theorem latest_concat (calls : List (ServeCall H)) (c : ServeCall H) :
    latest (calls ++ [c]) = match c.installed with
      | some handler => some handler
      | none => latest calls := by
  unfold latest
  rw [List.filterMap_append]
  cases hc : c.installed with
  | none => simp [hc]
  | some handler => simp [hc]

/-- The claims of a client. -/
structure Claimed (s : TightbeamWsClient F G H) : Prop where
  /-- The two records of the mode agree. -/
  agree : s.socket.serveMode = s.peer.serveMode
  /-- A client that is claimed has a mode. -/
  moded : s.peer.serveClaimed = true → s.peer.serveMode ≠ none
  /-- The serve loop is of that mode. -/
  loop : s.socket.loop = s.peer.serveMode
  /-- The responder is gone exactly when there is one. -/
  responder : s.socket.responder = s.peer.serveMode.isNone
  /-- The slot has the handler of the last call that went through. -/
  slot : s.socket.handler = latest s.calls
  /-- Before the first one there is none. -/
  empty : s.peer.serveMode = none → s.calls.filterMap ServeCall.installed = []
  /-- After it there is one. -/
  full : s.peer.serveMode ≠ none → latest s.calls ≠ none

/-- What a call of `serve` comes to: nothing, or a new handler in the mode on record. -/
inductive Serves (mode : ServeMode) (exclusive : Bool) (handler : H) (s : TightbeamWsClient F G H) :
    TightbeamWsClient F G H → Prop
  /-- The claim refuses. -/
  | refused (e : ServeError) (hclaim : s.peer.serve mode exclusive = .error e) :
      Serves mode exclusive handler s
        { s with calls := s.calls ++ [⟨mode, exclusive, handler, .error (.claim e)⟩] }
  /-- The handler is installed. -/
  | installed (hlive : s.peer.released = false) (hfree : s.peer.serveClaimed = false)
      (hmode : s.peer.serveMode = none ∨ s.peer.serveMode = some mode) :
      Serves mode exclusive handler s
        { s with
          peer := ⟨false, exclusive, some mode⟩
          socket := ⟨some mode, some handler, false, some mode⟩
          calls := s.calls ++ [⟨mode, exclusive, handler, .ok ()⟩] }

/-- **The wasm client never refuses what the client let through.** -/
theorem serves_of_claimed {s : TightbeamWsClient F G H} (h : Claimed s) (mode : ServeMode)
    (exclusive : Bool) (handler : H) :
    Serves mode exclusive handler s (s.serve mode exclusive handler) := by
  obtain ⟨⟨released, claimed, peerMode⟩, ⟨socketMode, slot, responder, loop⟩, streams, calls⟩ := s
  obtain ⟨hagree, -, hloop, hresponder, -, -, -⟩ := h
  dsimp only at hagree hloop hresponder
  subst hagree hloop hresponder
  cases hclaim : (Client.Peer.mk released claimed loop).serve mode exclusive with
  | error e =>
    have hserve := @Serves.refused F G H mode exclusive handler ⟨⟨released, claimed, loop⟩,
      ⟨loop, slot, loop.isNone, loop⟩, streams, calls⟩ e hclaim
    simpa only [serve, hclaim] using hserve
  | ok peer =>
    obtain ⟨hlive, hfree, hmode, rfl⟩ := Client.Peer.serve_cases hclaim
    dsimp only at hlive hfree hmode
    subst hlive hfree
    rcases hmode with rfl | rfl
    · exact .installed rfl rfl (.inl rfl)
    · have hserve := @Serves.installed F G H mode exclusive handler
        ⟨⟨false, false, some mode⟩, ⟨some mode, slot, false, some mode⟩, streams, calls⟩
        rfl rfl (.inr rfl)
      simpa [serve, Client.Peer.serve, MuxWsClient.serve, MuxWsClient.claimServe, bind,
        Except.bind, pure, Except.pure] using hserve

/-- A call that throws leaves the claims alone. -/
theorem Claimed.refused {s : TightbeamWsClient F G H} (h : Claimed s) {c : ServeCall H}
    (hc : c.installed = none) : Claimed { s with calls := s.calls ++ [c] } := by
  have hlatest : latest (s.calls ++ [c]) = latest s.calls := by
    rw [latest_concat, hc]
  refine ⟨h.agree, h.moded, h.loop, h.responder, h.slot.trans hlatest.symm, fun hnone => ?_,
    fun hsome => ?_⟩
  · dsimp only at hnone ⊢
    rw [List.filterMap_append, h.empty hnone]
    simp [hc]
  · exact hlatest ▸ h.full hsome

/-- A call that goes through records its mode and its handler. -/
theorem claimed_installed (s : TightbeamWsClient F G H) (mode : ServeMode) (exclusive : Bool)
    (handler : H) :
    Claimed { s with
      peer := ⟨false, exclusive, some mode⟩
      socket := ⟨some mode, some handler, false, some mode⟩
      calls := s.calls ++ [⟨mode, exclusive, handler, .ok ()⟩] } := by
  have hlatest : latest (s.calls ++ [⟨mode, exclusive, handler, .ok ()⟩]) = some handler :=
    latest_concat _ _
  refine ⟨rfl, fun _ hnone => ?_, rfl, rfl, hlatest.symm, fun hnone => ?_, fun _ hnone => ?_⟩
  · cases hnone
  · cases hnone
  · dsimp only at hnone
    rw [hlatest] at hnone
    cases hnone

/-! ### The streams -/

/-- A client that serves. -/
structure Serving (s : TightbeamWsClient F G H) : Prop where
  /-- Its claims. -/
  claimed : Claimed s
  /-- The wasm client refused no call. -/
  accepted : ∀ c ∈ s.calls, ∀ fault, c.result ≠ .error (.socket fault)
  /-- All calls that went through are of one mode. -/
  modes : ∀ c ∈ s.calls, c.installed ≠ none → s.peer.serveMode = some c.mode
  /-- After an exclusive call none goes through. -/
  owned : ∀ front c back, s.calls = front ++ c :: back → c.exclusive = true → c.installed ≠ none →
    s.peer.serveClaimed = true ∧ ∀ d ∈ back, d.installed = none
  /-- A stream is with the handler of the last call that went through before it was dispatched. -/
  dispatched : ∀ t ∈ s.streams, ∀ handler calls, t.2.by? = some (handler, calls) →
    s.peer.serveMode = some t.1.mode ∧ calls ≤ s.calls.length ∧
      handler = latest (s.calls.take calls) ∧ handler ≠ none
  /-- A stream is answered as its handler settled. -/
  answered : ∀ o handler calls settled p, (o, Served.answered handler calls settled p) ∈ s.streams →
    answer R L o settled = some p

variable {R L}

/-- A call keeps what streams were dispatched to. -/
theorem Serving.dispatched_concat {s : TightbeamWsClient F G H} (h : Serving R L s) (c : ServeCall H)
    {t : Incoming F × Served F G H} (ht : t ∈ s.streams) {handler : Option H} {calls : ℕ}
    (hby : t.2.by? = some (handler, calls)) :
    s.peer.serveMode = some t.1.mode ∧ calls ≤ (s.calls ++ [c]).length ∧
      handler = latest ((s.calls ++ [c]).take calls) ∧ handler ≠ none := by
  obtain ⟨hmode, hlen, hlatest, hne⟩ := h.dispatched t ht handler calls hby
  refine ⟨hmode, ?_, ?_, hne⟩
  · rw [List.length_append]
    exact Nat.le_add_right_of_le hlen
  · rw [List.take_append_of_le_length hlen]
    exact hlatest

theorem Serving.serve {s : TightbeamWsClient F G H} (h : Serving R L s) (mode : ServeMode)
    (exclusive : Bool) (handler : H) : Serving R L (s.serve mode exclusive handler) := by
  -- a cut of the calls is before the new one, or at it
  have hcut {c : ServeCall H} {front back : List (ServeCall H)} {d : ServeCall H}
      (hcalls : s.calls ++ [c] = front ++ d :: back) :
      (back = [] ∧ front = s.calls ∧ d = c) ∨ ∃ rest, back = rest ++ [c] ∧
        s.calls = front ++ d :: rest := by
    rcases List.eq_nil_or_concat back with rfl | ⟨rest, last, rfl⟩
    · obtain ⟨hfront, hlast⟩ := List.append_inj' hcalls rfl
      cases hlast
      exact .inl ⟨rfl, hfront.symm, rfl⟩
    · rw [List.concat_eq_append, ← List.cons_append, ← List.append_assoc] at hcalls
      obtain ⟨hfront, hlast⟩ := List.append_inj' hcalls rfl
      cases hlast
      exact .inr ⟨rest, List.concat_eq_append, hfront⟩
  have hserves := serves_of_claimed h.claimed mode exclusive handler
  generalize s.serve mode exclusive handler = s' at hserves ⊢
  cases hserves with
  | refused e hclaim =>
    have hnone : (ServeCall.mk mode exclusive handler (.error (.claim e))).installed = none := rfl
    refine ⟨h.claimed.refused hnone, ?_, ?_, ?_, ?_, h.answered⟩
    · intro c hc fault hfault
      rcases List.mem_append.1 hc with hc | hc
      · exact h.accepted c hc fault hfault
      · rw [List.mem_singleton.1 hc] at hfault
        cases hfault
    · intro c hc hinstalled
      rcases List.mem_append.1 hc with hc | hc
      · exact h.modes c hc hinstalled
      · rw [List.mem_singleton.1 hc] at hinstalled
        exact absurd hnone hinstalled
    · intro front c back hcalls hexclusive hinstalled
      rcases hcut hcalls with ⟨-, -, rfl⟩ | ⟨rest, rfl, hrest⟩
      · exact absurd hnone hinstalled
      · obtain ⟨hclaimed, hback⟩ := h.owned front c rest hrest hexclusive hinstalled
        refine ⟨hclaimed, fun d hd => ?_⟩
        rcases List.mem_append.1 hd with hd | hd
        · exact hback d hd
        · rw [List.mem_singleton.1 hd]
          exact hnone
    · intro t ht handler' calls hby
      exact h.dispatched_concat _ ht hby
  | installed hlive hfree hmode =>
    refine ⟨claimed_installed s mode exclusive handler, ?_, ?_, ?_, ?_, h.answered⟩
    · intro c hc fault hfault
      rcases List.mem_append.1 hc with hc | hc
      · exact h.accepted c hc fault hfault
      · rw [List.mem_singleton.1 hc] at hfault
        cases hfault
    · intro c hc hinstalled
      rcases List.mem_append.1 hc with hc | hc
      · have hsome := h.modes c hc hinstalled
        rcases hmode with hmode | hmode
        · rw [hmode] at hsome
          cases hsome
        · exact hmode.symm.trans hsome
      · rw [List.mem_singleton.1 hc]
    · intro front c back hcalls hexclusive hinstalled
      rcases hcut hcalls with ⟨rfl, -, rfl⟩ | ⟨rest, rfl, hrest⟩
      · exact ⟨hexclusive, fun d hd => absurd hd List.not_mem_nil⟩
      · -- the claim would have refused the call
        have hclaimed := (h.owned front c rest hrest hexclusive hinstalled).1
        rw [hfree] at hclaimed
        cases hclaimed
    · intro t ht handler' calls hby
      obtain ⟨hsome, hrest⟩ := h.dispatched_concat ⟨mode, exclusive, handler, .ok ()⟩ ht hby
      refine ⟨?_, hrest⟩
      rcases hmode with hmode | hmode
      · rw [hmode] at hsome
        cases hsome
      · exact hmode.symm.trans hsome

/-- A stream that moves on. -/
theorem Serving.become {s : TightbeamWsClient F G H} (h : Serving R L s) {i : ℕ} {o : Incoming F}
    {served' : Served F G H}
    (hby : ∀ handler calls, served'.by? = some (handler, calls) →
      s.peer.serveMode = some o.mode ∧ calls ≤ s.calls.length ∧
        handler = latest (s.calls.take calls) ∧ handler ≠ none)
    (hanswered : ∀ handler calls settled p, served' = .answered handler calls settled p →
      answer R L o settled = some p) :
    Serving R L (s.become i o served') := by
  refine ⟨⟨h.claimed.agree, h.claimed.moded, h.claimed.loop, h.claimed.responder, h.claimed.slot,
    h.claimed.empty, h.claimed.full⟩, h.accepted, h.modes, h.owned, ?_, ?_⟩
  · intro t ht
    rcases List.mem_or_eq_of_mem_set ht with ht | rfl
    · exact h.dispatched t ht
    · exact hby
  · intro o' handler calls settled p hp
    rcases List.mem_or_eq_of_mem_set hp with hp | hp
    · exact h.answered o' handler calls settled p hp
    · cases hp
      exact hanswered handler calls settled p rfl

theorem serving_fresh : Serving R L (fresh : TightbeamWsClient F G H) where
  claimed := ⟨rfl, (fun h => by cases h), rfl, rfl, rfl, fun _ => rfl, fun h => absurd rfl h⟩
  accepted c hc := absurd hc List.not_mem_nil
  modes c hc := absurd hc List.not_mem_nil
  owned front c back hcalls := by
    have hnil := List.append_eq_nil_iff.1 hcalls.symm
    cases hnil.2
  dispatched t ht := absurd ht List.not_mem_nil
  answered o handler calls settled p hp := absurd hp List.not_mem_nil

/-- **Every step keeps a client serving.** -/
theorem Serving.step {s s' : TightbeamWsClient F G H} (h : Serving R L s) {a : ServeAction F G H}
    (hstep : step R L s a = some s') : Serving R L s' := by
  cases a with
  | serve mode exclusive handler =>
    cases hstep
    exact h.serve mode exclusive handler
  | close =>
    cases hstep
    exact ⟨⟨h.claimed.agree, h.claimed.moded, h.claimed.loop, h.claimed.responder, h.claimed.slot,
      h.claimed.empty, h.claimed.full⟩, h.accepted, h.modes, h.owned, h.dispatched, h.answered⟩
  | incoming o =>
    cases hstep
    refine ⟨⟨h.claimed.agree, h.claimed.moded, h.claimed.loop, h.claimed.responder, h.claimed.slot,
      h.claimed.empty, h.claimed.full⟩, h.accepted, h.modes, h.owned, ?_, ?_⟩
    · intro t ht handler calls hby
      rcases List.mem_append.1 ht with ht | ht
      · exact h.dispatched t ht handler calls hby
      · rw [List.mem_singleton.1 ht] at hby
        cases hby
    · intro o' handler calls settled p hp
      rcases List.mem_append.1 hp with hp | hp
      · exact h.answered o' handler calls settled p hp
      · cases List.mem_singleton.1 hp
  | dispatch i =>
    unfold TightbeamWsClient.step at hstep
    dsimp only at hstep
    split at hstep
    · next o hstream =>
      split at hstep
      · next hloop =>
        cases hstep
        have hmode : s.peer.serveMode = some o.mode := h.claimed.loop.symm.trans hloop
        refine h.become (fun handler calls hby => ?_) fun _ _ _ _ hne => by cases hne
        cases hby
        refine ⟨hmode, Nat.le_refl _, ?_, ?_⟩
        · rw [List.take_length]
          exact h.claimed.slot
        · rw [h.claimed.slot]
          exact h.claimed.full (by rw [hmode]; exact Option.some_ne_none _)
      · cases hstep
    · cases hstep
  | refuse i status =>
    unfold TightbeamWsClient.step at hstep
    dsimp only at hstep
    split at hstep
    · next o mode hstream hloop =>
      split at hstep
      · cases hstep
      · cases hstep
        exact h.become (fun _ _ hby => by cases hby) fun _ _ _ _ hne => by cases hne
    · cases hstep
  | settle i settled =>
    unfold TightbeamWsClient.step at hstep
    dsimp only at hstep
    split at hstep
    · next o handler calls hstream =>
      obtain ⟨p, hp, rfl⟩ := Option.map_eq_some_iff.1 hstep
      refine h.become (fun handler' calls' hby => ?_) fun _ _ _ _ hsame => ?_
      · cases hby
        exact h.dispatched _ (List.mem_of_getElem? hstream) handler calls rfl
      · cases hsame
        exact hp
    · cases hstep

theorem serving_of_reachable {s : TightbeamWsClient F G H} (h : Reachable (step R L) fresh s) :
    Serving R L s :=
  h.invariant serving_fresh fun _ _ _ _ h _ hstep => h.step hstep

/-- An exclusive call serves every stream that is dispatched after it. -/
theorem Serving.owner {s : TightbeamWsClient F G H} (h : Serving R L s) {front back : List (ServeCall H)}
    {c : ServeCall H} (hcalls : s.calls = front ++ c :: back) (hexclusive : c.exclusive = true)
    (hinstalled : c.installed = some c.handler) {t : Incoming F × Served F G H} (ht : t ∈ s.streams)
    {handler : Option H} {calls : ℕ} (hby : t.2.by? = some (handler, calls))
    (hafter : front.length < calls) : handler = some c.handler := by
  obtain ⟨-, -, hlatest, -⟩ := h.dispatched t ht handler calls hby
  obtain ⟨-, hback⟩ := h.owned front c back hcalls hexclusive (by rw [hinstalled]; simp)
  obtain ⟨k, rfl⟩ := Nat.exists_eq_add_of_lt hafter
  have htake : s.calls.take (front.length + k + 1) = front ++ c :: back.take k := by
    rw [hcalls, Nat.add_assoc, List.take_length_add_append, List.take_succ_cons]
  have hnone : (back.take k).filterMap ServeCall.installed = [] := by
    rw [List.filterMap_eq_nil_iff]
    exact fun d hd => hback d (List.mem_of_mem_take hd)
  rw [hlatest, htake, latest, List.filterMap_append, List.filterMap_cons, hinstalled, hnone]
  simp

/-- **A stream stays with its handler**, and is answered once. -/
theorem kept_of_reachable {s s' : TightbeamWsClient F G H} (h : Reachable (step R L) s s') {i : ℕ}
    {o : Incoming F} {served : Served F G H} (hstream : s.streams[i]? = some (o, served))
    {handler : Option H} {calls : ℕ} (hby : served.by? = some (handler, calls)) :
    ∃ served', s'.streams[i]? = some (o, served') ∧ served'.by? = some (handler, calls) ∧
      ∀ settled p, served = .answered handler calls settled p → served' = served := by
  refine h.invariant (I := fun s' => ∃ served', s'.streams[i]? = some (o, served') ∧
    served'.by? = some (handler, calls) ∧
      ∀ settled p, served = .answered handler calls settled p → served' = served)
    ⟨served, hstream, hby, fun _ _ _ => rfl⟩ ?_
  rintro u a u' - ⟨served', hu, hby', hkeep⟩ - hstep
  -- only the stream of the action moves, and not one that was answered
  have hmoves {j : ℕ} {o' : Incoming F} {old new : Served F G H} (hj : u.streams[j]? = some (o', old))
      (hnew : ∀ x, old.by? = some x →
        new.by? = some x ∧ ∀ settled p, old ≠ .answered x.1 x.2 settled p) :
      ∃ served', (u.become j o' new).streams[i]? = some (o, served') ∧
        served'.by? = some (handler, calls) ∧
          ∀ settled p, served = .answered handler calls settled p → served' = served := by
    by_cases hij : j = i
    · subst hij
      rw [hu] at hj
      cases hj
      obtain ⟨hlt, -⟩ := List.getElem?_eq_some_iff.1 hu
      obtain ⟨hsame, hopen⟩ := hnew _ hby'
      refine ⟨new, List.getElem?_set_self hlt, hsame, fun settled p hp => ?_⟩
      exact absurd ((hkeep settled p hp).trans hp) (hopen settled p)
    · refine ⟨served', ?_, hby', hkeep⟩
      exact (List.getElem?_set_ne hij).trans hu
  cases a with
  | serve mode exclusive handler' =>
    cases hstep
    refine ⟨served', ?_, hby', hkeep⟩
    unfold serve
    dsimp only
    split
    · exact hu
    · split
      · exact hu
      · exact hu
  | close =>
    cases hstep
    exact ⟨served', hu, hby', hkeep⟩
  | incoming o' =>
    cases hstep
    obtain ⟨hlt, -⟩ := List.getElem?_eq_some_iff.1 hu
    exact ⟨served', (List.getElem?_append_left hlt).trans hu, hby', hkeep⟩
  | dispatch j =>
    unfold TightbeamWsClient.step at hstep
    dsimp only at hstep
    split at hstep
    · next o' hj =>
      split at hstep
      · cases hstep
        exact hmoves hj fun x hx => by cases hx
      · cases hstep
    · cases hstep
  | refuse j status =>
    unfold TightbeamWsClient.step at hstep
    dsimp only at hstep
    split at hstep
    · next o' mode hj hloop =>
      split at hstep
      · cases hstep
      · cases hstep
        exact hmoves hj fun x hx => by cases hx
    · cases hstep
  | settle j settled =>
    unfold TightbeamWsClient.step at hstep
    dsimp only at hstep
    split at hstep
    · next o' handler' calls' hj =>
      obtain ⟨p, hp, rfl⟩ := Option.map_eq_some_iff.1 hstep
      exact hmoves hj fun x hx => ⟨hx, fun _ _ hne => by cases hne⟩
    · cases hstep

/-- A stream that is answered after a step was so before, or its handler settles in the step. -/
theorem answered_step {s s' : TightbeamWsClient F G H} {a : ServeAction F G H}
    (hstep : step R L s a = some s') {i : ℕ} {o : Incoming F} {handler : Option H} {calls : ℕ}
    {settled : Settled G} {p : ResponsePackage F}
    (h : s'.streams[i]? = some (o, .answered handler calls settled p)) :
    s.streams[i]? = some (o, .answered handler calls settled p) ∨
      a = .settle i settled ∧ s.streams[i]? = some (o, .calling handler calls) := by
  -- a stream that moves to where it is not answered is another one
  have hmoves {j : ℕ} {o' : Incoming F} {old new : Served F G H} (hj : s.streams[j]? = some (o', old))
      (hb : (s.become j o' new).streams[i]? = some (o, .answered handler calls settled p)) :
      (j = i ∧ o' = o ∧ new = .answered handler calls settled p) ∨
        s.streams[i]? = some (o, .answered handler calls settled p) := by
    by_cases hij : j = i
    · subst hij
      obtain ⟨hlt, -⟩ := List.getElem?_eq_some_iff.1 hj
      have hself : (s.streams.set j (o', new))[j]? = some (o', new) := List.getElem?_set_self hlt
      obtain ⟨rfl, rfl⟩ := Prod.mk.inj (Option.some.inj (hself.symm.trans hb))
      exact .inl ⟨rfl, rfl, rfl⟩
    · exact .inr ((List.getElem?_set_ne hij).symm.trans hb)
  cases a with
  | serve mode exclusive handler' =>
    cases hstep
    refine .inl ?_
    unfold serve at h
    dsimp only at h
    split at h
    · exact h
    · split at h
      · exact h
      · exact h
  | close =>
    cases hstep
    exact .inl h
  | incoming o' =>
    cases hstep
    rcases Nat.lt_or_ge i s.streams.length with hlt | hge
    · exact .inl ((List.getElem?_append_left hlt).symm.trans h)
    · have hlast := (List.getElem?_append_right hge).symm.trans h
      have hwaiting := List.mem_of_getElem? hlast
      cases List.mem_singleton.1 hwaiting
  | dispatch j =>
    unfold TightbeamWsClient.step at hstep
    dsimp only at hstep
    split at hstep
    · next o' hj =>
      split at hstep
      · cases hstep
        rcases hmoves hj h with ⟨-, -, hnew⟩ | hold
        · cases hnew
        · exact .inl hold
      · cases hstep
    · cases hstep
  | refuse j status =>
    unfold TightbeamWsClient.step at hstep
    dsimp only at hstep
    split at hstep
    · next o' mode hj hloop =>
      split at hstep
      · cases hstep
      · cases hstep
        rcases hmoves hj h with ⟨-, -, hnew⟩ | hold
        · cases hnew
        · exact .inl hold
    · cases hstep
  | settle j settled' =>
    unfold TightbeamWsClient.step at hstep
    dsimp only at hstep
    split at hstep
    · next o' handler' calls' hj =>
      obtain ⟨p', hp', rfl⟩ := Option.map_eq_some_iff.1 hstep
      rcases hmoves hj h with ⟨rfl, rfl, hnew⟩ | hold
      · cases hnew
        exact .inr ⟨rfl, hj⟩
      · exact .inl hold
    · cases hstep

/-- **An answered stream was with its handler when that handler settled**, and is answered for what
it settled with. -/
theorem settled_of_reachable {s : TightbeamWsClient F G H} (h : Reachable (step R L) fresh s) {i : ℕ}
    {o : Incoming F} {handler : Option H} {calls : ℕ} {settled : Settled G} {p : ResponsePackage F}
    (hstream : s.streams[i]? = some (o, .answered handler calls settled p)) :
    ∃ u u', Reachable (step R L) fresh u ∧ u.streams[i]? = some (o, .calling handler calls) ∧
      u.step R L (.settle i settled) = some u' ∧ Reachable (step R L) u' s := by
  induction h with
  | start => cases hstream
  | next hs _ hstep ih =>
    rcases answered_step hstep hstream with hold | ⟨rfl, hcalling⟩
    · obtain ⟨u, u', hu, hcalling, hsettle, hrest⟩ := ih hold
      exact ⟨u, u', hu, hcalling, hsettle, hrest.next trivial hstep⟩
    · exact ⟨_, _, hs, hcalling, hstep, .start⟩

end TightbeamWsClient

/-- **Serving is one handler at a time**, over every run: the two claims agree and the wasm client
refuses no call, a stream is answered once and by the handler that was in force when it was
dispatched, after an exclusive claim that handler is the claimant's, and the answer is the one to
what the handler settled with in the run. -/
theorem serve_protocol {F G H : Type} (R : Runtime) (L : FrameGlue F G) {s : TightbeamWsClient F G H}
    (h : Reachable (TightbeamWsClient.step R L) .fresh s) :
    s.Serving R L ∧
      (∀ front c back t handler calls, s.calls = front ++ c :: back → c.exclusive = true →
        c.installed = some c.handler → t ∈ s.streams → t.2.by? = some (handler, calls) →
          front.length < calls → handler = some c.handler) ∧
      (∀ (i : ℕ) o handler calls settled p,
        s.streams[i]? = some (o, .answered handler calls settled p) →
          answer R L o settled = some p ∧
            ∃ u u', Reachable (TightbeamWsClient.step R L) .fresh u ∧
              u.streams[i]? = some (o, .calling handler calls) ∧
              u.step R L (.settle i settled) = some u' ∧
              Reachable (TightbeamWsClient.step R L) u' s) ∧
      ∀ s', Reachable (TightbeamWsClient.step R L) s s' → ∀ (i : ℕ) o served handler calls,
        s.streams[i]? = some (o, served) → served.by? = some (handler, calls) →
          ∃ served', s'.streams[i]? = some (o, served') ∧ served'.by? = some (handler, calls) ∧
            ∀ settled p, served = .answered handler calls settled p → served' = served := by
  have hserving := TightbeamWsClient.serving_of_reachable h
  refine ⟨hserving, ?_, ?_, ?_⟩
  · intro front c back t handler calls hcalls hexclusive hinstalled ht hby hafter
    exact hserving.owner hcalls hexclusive hinstalled ht hby hafter
  · intro i o handler calls settled p hstream
    exact ⟨hserving.answered o handler calls settled p (List.mem_of_getElem? hstream),
      TightbeamWsClient.settled_of_reachable h hstream⟩
  · intro s' hs' i o served handler calls hstream hby
    exact TightbeamWsClient.kept_of_reachable hs' hstream hby

namespace Small

/-- Frames that are their own octets. -/
def octetGlue : FrameGlue Octets Octets where
  toDer := .ok
  fromDer := .ok
  parse := .ok
  der := id

/-- The second handler claims the client while the first one has a stream; the third is refused. -/
theorem exclusive_claim : ∃ s : TightbeamWsClient Octets Octets ℕ,
    s.Serving ⟨[], fun _ _ => .absent, fun _ _ => true⟩ octetGlue ∧
      s.streams.map (fun t => t.2.by?) = [some (some 0, 1), some (some 1, 2)] ∧
      s.streams.map (fun t => t.2.response?) = [some ⟨.ok, none⟩, some ⟨.ok, some [7]⟩] ∧
      s.calls.map ServeCall.installed = [some 0, some 1, none] := by
  have hreach := (@Reaches.start _ _ (@TightbeamWsClient.step Octets Octets ℕ
      ⟨[], fun _ _ => .absent, fun _ _ => true⟩ octetGlue) (fun _ _ => True) .fresh)
    |>.next (a := .serve .unary false 0) trivial rfl |>.next (a := .incoming (.unary [1])) trivial rfl
    |>.next (a := .dispatch 0) trivial rfl |>.next (a := .serve .unary true 1) trivial rfl
    |>.next (a := .incoming (.unary [2])) trivial rfl |>.next (a := .dispatch 1) trivial rfl
    |>.next (a := .serve .unary false 2) trivial rfl
    |>.next (a := .settle 1 (.frame (some [7]))) trivial rfl
    |>.next (a := .settle 0 (.frame none)) trivial rfl
  exact ⟨_, (serve_protocol _ _ hreach).1, rfl, rfl, rfl⟩

end Small

end Ws
end TightbeamExt
