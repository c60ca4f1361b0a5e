import TightbeamExt.Base.Transition
import TightbeamExt.Asn.Js

/-!
# Dialling against an abort signal

A dial races the opening of its socket, or a whole handshake over it, against an abort signal.  Two
futures are polled together, the opening first; whoever is ready when the race is polled wins it,
and a dial that finds its signal aborted after the race closes its socket.

Promises settle in events and reach the futures behind them in microtasks, and microtasks run until
none is left before the next event of the socket.  Only the application's abort may come between
them.

## Main definitions

* `Dial`, `Dial.step` — a dial with its socket, its listeners and its signal.
* `Dial.Quiet` — no microtask is left.

## Main results

* `dial_protocol` — **no live socket is left behind an aborted dial**, listeners are detached, and
  how a dial settles; an abort before the socket's first event rejects with its reason.
* `Small.resolves_over_closing` — an abort right after the `open` event closes the socket under a
  client that is given out.
-/

namespace TightbeamExt
namespace Ws

open Asn (Js)
open Transition

/-- `readyState`. -/
inductive ReadyState
  /-- `CONNECTING`. -/
  | connecting
  /-- `OPEN`. -/
  | opened
  /-- `CLOSING`. -/
  | closing
  /-- `CLOSED`. -/
  | closed
  deriving DecidableEq, Repr

/-- `close` of a socket. -/
def ReadyState.close : ReadyState → ReadyState
  | .connecting => .closing
  | .opened => .closing
  | state => state

/-- The socket carries nothing any more. -/
def ReadyState.Down (state : ReadyState) : Prop := state = .closing ∨ state = .closed

/-- What a dial rejects with. -/
inductive DialFault
  /-- The signal's abort reason. -/
  | aborted
  /-- `connection_closed`. -/
  | connectionClosed (message : String)
  /-- Anything else the bindings, the transport or the handshake reject with. -/
  | other (rejection : Js)

/-- What is raced. -/
inductive DialKind
  /-- `connect_cleartext`: the opening of the socket. -/
  | cleartext
  /-- `connect`, `connect_mutual` and `connect_mutual_with_signer`: `negotiate`. -/
  | handshake
  deriving DecidableEq, Repr

/-- How far a dial has come. -/
inductive DialPhase
  /-- Its promise has not run yet. -/
  | starting
  /-- The race is on. -/
  | racing
  /-- It is settled; whether its signal was aborted by then. -/
  | settled (outcome : Except DialFault Unit) (aborted : Bool)

/-- A dial. -/
structure Dial where
  /-- What is raced. -/
  kind : DialKind
  /-- The signal, aborted or not. -/
  signal : Option Bool
  /-- The signal was aborted before any event of the socket. -/
  early : Bool
  /-- The socket. -/
  socket : Option ReadyState
  /-- The socket's first event: it opened, or it closed. -/
  first : Option Bool
  /-- The `OpenWatch` is in its slot, its listeners attached. -/
  watch : Bool
  /-- The promise of the opening, or the handshake. -/
  promise : Option (Except DialFault Unit)
  /-- The future behind it is ready. -/
  left : Option (Except DialFault Unit)
  /-- The `AbortWatch` is attached. -/
  listener : Bool
  /-- Its promise is resolved. -/
  fired : Bool
  /-- The future behind it is ready. -/
  right : Bool
  /-- How far it has come. -/
  phase : DialPhase

/-- What may happen. -/
inductive DialAction
  /-- The application aborts the signal. -/
  | abort
  /-- The socket's `open` event. -/
  | opened
  /-- The socket's `close` event. -/
  | closed (code : ℕ)
  /-- The handshake is through, or failed. -/
  | negotiated (outcome : Except Js Unit)
  /-- The promise runs to the race; the socket is constructed, or is not. -/
  | start (made : Except Js Unit)
  /-- A microtask: the future of the opening becomes ready. -/
  | wakeLeft
  /-- A microtask: the future of the abort becomes ready. -/
  | wakeRight
  /-- A microtask: the race is polled; what follows an opening works out, or does not. -/
  | poll (assembled : Except Js Unit)

namespace Dial

/-- A dial that was just called, its signal aborted already or not. -/
def begin (kind : DialKind) (signal : Option Bool) : Dial where
  kind := kind
  signal := signal
  early := signal == some true
  socket := none
  first := none
  watch := false
  promise := none
  left := none
  listener := false
  fired := false
  right := false
  phase := .starting

/-- The promise is not racing, or nothing is ready for its poll. -/
def Unready (s : Dial) : Prop :=
  match s.phase with
  | .racing => s.left = none ∧ s.right = false
  | _ => True

instance (s : Dial) : Decidable s.Unready := by
  unfold Unready
  split <;> infer_instance

/-- No microtask is left. -/
def Quiet (s : Dial) : Prop :=
  (s.promise.isSome → s.left.isSome) ∧ (s.fired = true → s.right = true) ∧ s.Unready

instance (s : Dial) : Decidable s.Quiet := inferInstanceAs (Decidable (_ ∧ _ ∧ _))

/-- A lifecycle event takes the watch, and settles its promise. -/
def takeWatch (s : Dial) (outcome : Except DialFault Unit) : Dial :=
  if s.watch then { s with watch := false, promise := some outcome } else s

/-- `on_close`. -/
def closedFirst (code : ℕ) : DialFault :=
  .connectionClosed s!"the socket closed before it opened (code {code})"

/-- `await_open` and `establish`, after the race. -/
def settle (s : Dial) (outcome : Except DialFault Unit) (assembled : Except Js Unit) : Dial :=
  { s with
    listener := false
    socket := if s.signal = some true then s.socket.map ReadyState.close else s.socket
    phase := .settled (outcome.bind fun _ => assembled.mapError .other) (s.signal == some true) }

/-- One step. -/
def step (s : Dial) : DialAction → Option Dial
  | .abort =>
      if s.signal = some false then
        some { s with
          signal := some true
          early := s.first.isNone
          listener := false
          fired := s.fired || s.listener }
      else none
  | .opened =>
      if s.socket = some .connecting ∧ s.Quiet then
        some ({ s with socket := some .opened, first := s.first.or (some true) }.takeWatch (.ok ()))
      else none
  | .closed code =>
      if s.socket.isSome ∧ s.socket ≠ some .closed ∧ s.Quiet then
        some ({ s with socket := some .closed, first := s.first.or (some false) }.takeWatch
          (.error (closedFirst code)))
      else none
  | .negotiated outcome =>
      match s.kind, s.phase, s.promise with
      | .handshake, .racing, none => some { s with promise := some (outcome.mapError .other) }
      | _, _, _ => none
  | .start made =>
      match s.phase, s.signal, made with
      | .starting, some true, _ => some { s with phase := .settled (.error .aborted) true }
      | .starting, _, .error rejection =>
          some { s with phase := .settled (.error (.other rejection)) false }
      | .starting, _, .ok _ =>
          some { s with
            socket := some .connecting
            watch := s.kind == .cleartext
            listener := s.signal.isSome
            phase := .racing }
      | _, _, _ => none
  | .wakeLeft =>
      match s.promise, s.left with
      | some outcome, none => some { s with left := some outcome }
      | _, _ => none
  | .wakeRight => if s.fired ∧ s.right = false then some { s with right := true } else none
  | .poll assembled =>
      match s.phase, s.left with
      | .racing, some outcome => some (s.settle outcome assembled)
      | .racing, none => if s.right then some (s.settle (.error .aborted) assembled) else none
      | _, _ => none

/-! ### What holds of a dial -/

/-- How an opening or a handshake may settle. -/
def Opens (s : Dial) : Except DialFault Unit → Prop
  | .ok _ => s.kind = .cleartext → s.first = some true
  | .error fault =>
      (s.kind = .handshake ∧ ∃ rejection, fault = .other rejection) ∨
      (s.kind = .cleartext ∧ (∃ code, fault = closedFirst code) ∧ s.first = some false ∧
        s.socket = some .closed)

/-- The promises of a dial and the futures behind them. -/
structure Wired (s : Dial) : Prop where
  /-- Nothing is there before the dial runs. -/
  fresh : s.phase = .starting → s.socket = none ∧ s.first = none ∧ s.promise = none ∧
    s.watch = false ∧ s.fired = false ∧ s.listener = false
  /-- The watch waits for the first event. -/
  watch : s.watch = true → s.first = none ∧ s.promise = none ∧ s.kind = .cleartext
  /-- What the promise settled with. -/
  promise : ∀ outcome, s.promise = some outcome → s.Opens outcome
  /-- The future has what the promise settled with. -/
  left : ∀ outcome, s.left = some outcome → s.promise = some outcome
  /-- An early abort is an abort. -/
  marked : s.early = true → s.signal = some true
  /-- The abort promise is resolved by an abort. -/
  fired : s.fired = true → s.signal = some true
  /-- Its future is ready after it. -/
  right : s.right = true → s.fired = true
  /-- While the race is on, the abort listener is there until the abort. -/
  race : s.phase = .racing → (s.listener = true ↔ s.signal = some false) ∧
    (s.signal = some true → s.fired = true)
  /-- A race whose signal was aborted first waits for nothing else. -/
  early : s.kind = .cleartext → s.phase = .racing → s.early = true →
    s.promise = none ∧ s.fired = true

/-- How a dial settled. -/
structure SettledAs (s : Dial) (outcome : Except DialFault Unit) (aborted : Bool) : Prop where
  /-- The abort listener is gone. -/
  detached : s.listener = false
  /-- An aborted dial leaves no live socket behind. -/
  down : aborted = true → s.signal = some true ∧ ∀ state, s.socket = some state → state.Down
  /-- The abort reason is that of an aborted signal. -/
  reason : outcome = .error .aborted → aborted = true
  /-- A client is given out over a socket that opened. -/
  opened : s.kind = .cleartext → outcome = .ok () → s.first = some true
  /-- A failed dial is one whose socket closed first, and it is closed. -/
  failed : ∀ message, outcome = .error (.connectionClosed message) →
    s.first = some false ∧ s.socket = some .closed
  /-- An abort before the first event of the socket rejects with the abort reason. -/
  early : s.kind = .cleartext → aborted = true → s.early = true → outcome = .error .aborted

/-- How a dial settled does not lie in its promises. -/
theorem SettledAs.frame {s : Dial} {outcome : Except DialFault Unit} {aborted : Bool}
    (h : s.SettledAs outcome aborted) (promise left : Option (Except DialFault Unit))
    (right : Bool) :
    SettledAs { s with promise := promise, left := left, right := right } outcome aborted :=
  ⟨h.detached, h.down, h.reason, h.opened, h.failed, h.early⟩

/-- The invariant of a dial. -/
structure Sound (s : Dial) : Prop where
  /-- Its promises. -/
  wired : Wired s
  /-- How it settled. -/
  settled : ∀ outcome aborted, s.phase = .settled outcome aborted → SettledAs s outcome aborted

theorem sound_begin (kind : DialKind) (signal : Option Bool) : Sound (begin kind signal) := by
  refine ⟨⟨fun _ => ⟨rfl, rfl, rfl, rfl, rfl, rfl⟩, ?_, ?_, ?_, ?_, ?_, ?_, ?_, ?_⟩, ?_⟩
  · intro h; cases h
  · intro _ h; cases h
  · intro _ h; cases h
  · intro h
    simpa [begin] using h
  · intro h; cases h
  · intro h; cases h
  · intro h; cases h
  · intro _ h; cases h
  · intro _ _ h; cases h

theorem Sound.abort {s : Dial} (h : Sound s) (hsignal : s.signal = some false) :
    Sound { s with
      signal := some true
      early := s.first.isNone
      listener := false
      fired := s.fired || s.listener } := by
  obtain ⟨⟨hfresh, hwatch, hpromise, hleft, hmarked, hfired, hright, hrace, hearly⟩, hsettled⟩ := h
  refine ⟨⟨?_, hwatch, hpromise, hleft, fun _ => rfl, fun _ => rfl, ?_, ?_, ?_⟩, ?_⟩
  · intro hphase
    obtain ⟨hsocket, hfirst, hnone, hdetached, hcold, hlistener⟩ := hfresh hphase
    exact ⟨hsocket, hfirst, hnone, hdetached, by simp [hcold, hlistener], rfl⟩
  · intro hr
    simp [hright hr]
  · intro hphase
    have hlistener := ((hrace hphase).1).2 hsignal
    simp [hlistener]
  · intro hkind hphase hfirst
    have hlistener := ((hrace hphase).1).2 hsignal
    refine ⟨?_, by simp [hlistener]⟩
    -- no event, no promise
    cases hp : s.promise with
    | none => rfl
    | some outcome =>
      have hopens := hpromise outcome hp
      rw [Option.isNone_iff_eq_none] at hfirst
      have hk : s.kind = .cleartext := hkind
      cases outcome with
      | ok _ => simp [Opens, hk, hfirst] at hopens
      | error fault => simp [Opens, hk, hfirst] at hopens
  · intro outcome aborted hphase
    obtain ⟨-, hdown, hreason, hopened, hfailed, -⟩ := hsettled outcome aborted hphase
    have hlive : aborted = false := by
      by_contra habort
      have := (hdown (by simpa using habort)).1
      rw [hsignal] at this
      cases this
    refine ⟨rfl, ?_, hreason, hopened, hfailed, ?_⟩
    · intro habort
      rw [hlive] at habort
      cases habort
    · intro _ habort
      rw [hlive] at habort
      cases habort

/-- **An event of the socket**: it opens, or closes, and a watch that is there takes it. -/
theorem Sound.event {s : Dial} (h : Sound s) (hquiet : s.Quiet) {old new : ReadyState}
    (hsocket : s.socket = some old) (hold : old ≠ .closed) (hnew : new = .closed ∨ old = .connecting)
    (opens : Bool) {outcome : Except DialFault Unit}
    (hopens : s.kind = .cleartext → s.first = none →
      Opens { s with socket := some new, first := some opens } outcome) :
    Sound ({ s with socket := some new, first := s.first.or (some opens) }.takeWatch outcome) := by
  obtain ⟨⟨hfresh, hwatch, hpromise, hleft, hmarked, hfired, hright, hrace, hearly⟩, hsettled⟩ := h
  obtain ⟨-, hcold, hunready⟩ := hquiet
  have hrun : s.phase ≠ .starting := fun hphase => by
    rw [(hfresh hphase).1] at hsocket
    cases hsocket
  -- a race that is quiet was not aborted
  have hquiet (hphase : s.phase = .racing) : s.fired = false := by
    rw [Unready, hphase] at hunready
    cases hf : s.fired with
    | false => rfl
    | true =>
      have hr := hcold hf
      rw [hunready.2] at hr
      cases hr
  have hkeep (u : Dial) (hkind : u.kind = s.kind) (hfirst : u.first = s.first.or (some opens))
      {r : Except DialFault Unit} (hr : s.Opens r) : u.Opens r := by
    cases r with
    | ok _ =>
      intro hk
      rw [hfirst, hr (hkind.symm.trans hk)]
      rfl
    | error fault =>
      rcases hr with ⟨hk, hother⟩ | ⟨-, -, -, hc⟩
      · exact .inl ⟨hkind.trans hk, hother⟩
      · exact absurd (hsocket.symm.trans hc) (by simpa using hold)
  have hend (u : Dial) (hphase : u.phase = s.phase) (hsignal : u.signal = s.signal)
      (hearly' : u.early = s.early) (hkind : u.kind = s.kind) (hlistener : u.listener = s.listener)
      (hfirst : u.first = s.first.or (some opens)) (hsock : u.socket = some new)
      (r : Except DialFault Unit) (aborted : Bool) (hr : u.phase = .settled r aborted) :
      SettledAs u r aborted := by
    obtain ⟨hdetached, hdown, hreason, hopened, hfailed, hlate⟩ :=
      hsettled r aborted (hphase.symm.trans hr)
    refine ⟨hlistener.trans hdetached, fun habort => ?_, hreason, ?_, ?_, ?_⟩
    · obtain ⟨htrue, hall⟩ := hdown habort
      refine ⟨hsignal.trans htrue, fun state hstate => ?_⟩
      rw [hsock] at hstate
      cases hstate
      rcases hnew with rfl | rfl
      · exact .inr rfl
      · rcases hall _ hsocket with hne | hne
        · cases hne
        · cases hne
    · intro hk hok
      rw [hfirst, hopened (hkind.symm.trans hk) hok]
      rfl
    · intro message herror
      exact absurd (hsocket.symm.trans (hfailed message herror).2) (by simpa using hold)
    · intro hk habort he
      exact hlate (hkind.symm.trans hk) habort (hearly'.symm.trans he)
  unfold takeWatch
  split
  · next hw =>
    obtain ⟨hnofirst, hnopromise, hcleartext⟩ := hwatch hw
    have hnoleft : s.left = none := by
      cases hl : s.left with
      | none => rfl
      | some r =>
        have hp := hleft r hl
        rw [hnopromise] at hp
        cases hp
    refine ⟨⟨fun hphase => absurd hphase hrun, ?_, ?_, ?_, hmarked, hfired, hright, hrace, ?_⟩, ?_⟩
    · intro hne; cases hne
    · intro r hr
      cases hr
      have h := hopens hcleartext hnofirst
      rw [hnofirst]
      exact h
    · intro r hr
      rw [show s.left = some r from hr] at hnoleft
      cases hnoleft
    · intro hk hphase he
      have hf := (hearly hk hphase he).2
      rw [hquiet hphase] at hf
      cases hf
    · exact hend _ rfl rfl rfl rfl rfl rfl rfl
  · next hw =>
    refine ⟨⟨fun hphase => absurd hphase hrun, ?_, ?_, hleft, hmarked, hfired, hright, hrace, ?_⟩, ?_⟩
    · intro hne
      exact absurd hne hw
    · intro r hr
      exact hkeep { s with socket := some new, first := s.first.or (some opens) } rfl rfl
        (hpromise r hr)
    · intro hk hphase he
      have hf := (hearly hk hphase he).2
      rw [hquiet hphase] at hf
      cases hf
    · exact hend _ rfl rfl rfl rfl rfl rfl rfl

/-- **The race is over.** -/
theorem Sound.settle {s : Dial} (h : Sound s) (hphase : s.phase = .racing)
    {outcome : Except DialFault Unit}
    (hleft : s.left = some outcome ∨ s.left = none ∧ s.right = true ∧ outcome = .error .aborted)
    (assembled : Except Js Unit) : Sound (s.settle outcome assembled) := by
  obtain ⟨⟨hfresh, hwatch, hpromise, hleft', hmarked, hfired, hright, hrace, hearly⟩, -⟩ := h
  have hclose {r : Except DialFault Unit} (hr : s.Opens r) :
      (s.settle outcome assembled).Opens r := by
    cases r with
    | ok _ => exact hr
    | error fault =>
      rcases hr with hother | ⟨hk, hcode, hfirst, hsocket⟩
      · exact .inl hother
      · refine .inr ⟨hk, hcode, hfirst, ?_⟩
        simp only [Dial.settle, hsocket]
        split <;> rfl
  refine ⟨⟨?_, hwatch, ?_, hleft', hmarked, hfired, hright, ?_, ?_⟩, ?_⟩
  · intro hne; cases hne
  · intro r hr
    exact hclose (hpromise r hr)
  · intro hne; cases hne
  · intro _ hne; cases hne
  · intro r aborted hr
    unfold Dial.settle at hr
    dsimp only at hr
    cases hr
    refine ⟨rfl, fun habort => ?_, fun hreason => ?_, fun hk hok => ?_, fun message hfail => ?_,
      fun hk habort he => ?_⟩
    · have htrue : s.signal = some true := by simpa using habort
      refine ⟨htrue, fun state hstate => ?_⟩
      simp only [Dial.settle, htrue, if_true, Option.map_eq_some_iff] at hstate
      obtain ⟨old, -, rfl⟩ := hstate
      cases old
      · exact .inl rfl
      · exact .inl rfl
      · exact .inl rfl
      · exact .inr rfl
    · rcases hleft with hl | ⟨-, hr, -⟩
      · -- no opening and no handshake rejects with the abort reason
        have hopens := hpromise outcome (hleft' outcome hl)
        cases outcome with
        | ok _ => cases assembled <;> simp [Except.bind, Except.mapError] at hreason
        | error fault =>
          cases hreason
          rcases hopens with ⟨-, _, hother⟩ | ⟨-, ⟨_, hcode⟩, -⟩
          · cases hother
          · cases hcode
      · simp [hfired (hright hr)]
    · rcases hleft with hl | ⟨-, -, rfl⟩
      · have hopens := hpromise outcome (hleft' outcome hl)
        cases outcome with
        | ok _ => exact hopens hk
        | error fault => cases hok
      · cases hok
    · rcases hleft with hl | ⟨-, -, rfl⟩
      · have hopens := hclose (hpromise outcome (hleft' outcome hl))
        cases outcome with
        | ok _ => cases assembled <;> simp [Except.bind, Except.mapError] at hfail
        | error fault =>
          cases hfail
          rcases hopens with ⟨-, _, hother⟩ | ⟨-, -, hfirst⟩
          · cases hother
          · exact hfirst
      · cases hfail
    · -- nothing but the abort was ready
      have hnone := (hearly hk hphase he).1
      rcases hleft with hl | ⟨-, -, rfl⟩
      · rw [hnone] at hleft'
        cases hleft' outcome hl
      · rfl

/-- **One step keeps the invariant.** -/
theorem Sound.step {s s' : Dial} {a : DialAction} (h : Sound s) (hstep : step s a = some s') :
    Sound s' := by
  cases a with
  | abort =>
    simp only [Dial.step] at hstep
    split at hstep
    · next hsignal =>
      cases hstep
      exact h.abort hsignal
    · cases hstep
  | opened =>
    simp only [Dial.step] at hstep
    split at hstep
    · next hready =>
      cases hstep
      exact h.event hready.2 hready.1 (by simp) (.inr rfl) true fun _ _ _ => rfl
    · cases hstep
  | closed code =>
    simp only [Dial.step] at hstep
    split at hstep
    · next hready =>
      cases hstep
      obtain ⟨hsome, hopen, hquiet⟩ := hready
      obtain ⟨old, hold⟩ := Option.isSome_iff_exists.1 hsome
      refine h.event hquiet hold (fun he => hopen (by rw [hold, he])) (.inl rfl) false ?_
      exact fun hk _ => .inr ⟨hk, ⟨code, rfl⟩, rfl, rfl⟩
    · cases hstep
  | negotiated outcome =>
    simp only [Dial.step] at hstep
    split at hstep
    · next hkind hphase hpromise =>
      cases hstep
      obtain ⟨⟨hfresh, hwatch, -, hleft, hmarked, hfired, hright, hrace, hearly⟩, hsettled⟩ := h
      refine ⟨⟨?_, ?_, ?_, ?_, hmarked, hfired, hright, hrace, ?_⟩,
        fun r aborted hr => (hsettled r aborted hr).frame _ _ _⟩
      · intro hstarting
        rw [show s.phase = .starting from hstarting] at hphase
        cases hphase
      · intro hw
        rw [(hwatch hw).2.2] at hkind
        cases hkind
      · intro r hr
        cases hr
        cases outcome with
        | ok _ =>
          intro hk
          rw [show s.kind = .cleartext from hk] at hkind
          cases hkind
        | error rejection => exact .inl ⟨hkind, rejection, rfl⟩
      · intro r hr
        have := hleft r hr
        rw [hpromise] at this
        cases this
      · intro hk
        rw [show s.kind = .cleartext from hk] at hkind
        cases hkind
    · cases hstep
  | start made =>
    obtain ⟨⟨hfresh, hwatch, hpromise, hleft, hmarked, hfired, hright, hrace, hearly⟩, -⟩ := h
    simp only [Dial.step] at hstep
    split at hstep
    · next hphase hsignal =>
      cases hstep
      obtain ⟨hsocket, -, -, -, -, hlistener⟩ := hfresh hphase
      refine ⟨⟨fun hne => (by cases hne), hwatch, hpromise, hleft, hmarked, hfired, hright,
        fun hne => (by cases hne), fun _ hne => (by cases hne)⟩, ?_⟩
      intro r aborted hr
      cases hr
      refine ⟨hlistener, fun _ => ⟨hsignal, fun state hstate => ?_⟩, fun _ => rfl, ?_, ?_,
        fun _ _ _ => rfl⟩
      · rw [show s.socket = some state from hstate] at hsocket
        cases hsocket
      · intro _ hok
        cases hok
      · intro _ hfail
        cases hfail
    · next rejection hphase _ =>
      cases hstep
      obtain ⟨-, -, -, -, -, hlistener⟩ := hfresh hphase
      refine ⟨⟨fun hne => (by cases hne), hwatch, hpromise, hleft, hmarked, hfired, hright,
        fun hne => (by cases hne), fun _ hne => (by cases hne)⟩, ?_⟩
      intro r aborted hr
      cases hr
      refine ⟨hlistener, ?_, ?_, ?_, ?_, ?_⟩
      · intro hne; cases hne
      · intro hne; cases hne
      · intro _ hne; cases hne
      · intro _ hne; cases hne
      · intro _ hne; cases hne
    · next hphase hlive =>
      cases hstep
      obtain ⟨-, hfirst, hnone, -, hcold, -⟩ := hfresh hphase
      have hnotfired (hf : s.fired = true) : False := by
        rw [hcold] at hf
        cases hf
      -- an aborted signal was turned away
      have hsignal : s.signal ≠ some true := hlive
      refine ⟨⟨fun hne => (by cases hne), ?_, ?_, hleft, hmarked, hfired, hright, ?_, ?_⟩, ?_⟩
      · intro hw
        exact ⟨hfirst, hnone, by simpa using hw⟩
      · intro r hr
        rw [show s.promise = some r from hr] at hnone
        cases hnone
      · intro _
        refine ⟨?_, fun hs => absurd hs hsignal⟩
        rcases hs : s.signal with _ | _ | _
        · simp
        · simp
        · exact absurd hs hsignal
      · intro _ _ he
        exact absurd (hmarked he) hsignal
      · intro _ _ hne; cases hne
    · cases hstep
  | wakeLeft =>
    simp only [Dial.step] at hstep
    split at hstep
    · next outcome hpromise hnone =>
      cases hstep
      obtain ⟨⟨hfresh, hwatch, hopens, -, hmarked, hfired, hright, hrace, hearly⟩, hsettled⟩ := h
      refine ⟨⟨hfresh, hwatch, hopens, ?_, hmarked, hfired, hright, hrace, hearly⟩,
        fun r aborted hr => (hsettled r aborted hr).frame _ _ _⟩
      intro r hr
      cases hr
      exact hpromise
    · cases hstep
  | wakeRight =>
    simp only [Dial.step] at hstep
    split at hstep
    · next hready =>
      cases hstep
      obtain ⟨⟨hfresh, hwatch, hopens, hleft, hmarked, hfired, -, hrace, hearly⟩, hsettled⟩ := h
      exact ⟨⟨hfresh, hwatch, hopens, hleft, hmarked, hfired, fun _ => hready.1, hrace, hearly⟩,
        fun r aborted hr => (hsettled r aborted hr).frame _ _ _⟩
    · cases hstep
  | poll assembled =>
    simp only [Dial.step] at hstep
    split at hstep
    · next outcome hphase hleft =>
      cases hstep
      exact h.settle hphase (.inl hleft) assembled
    · next hphase hleft =>
      split at hstep
      · next hright =>
        cases hstep
        exact h.settle hphase (.inr ⟨hleft, hright, rfl⟩) assembled
      · cases hstep
    · cases hstep

theorem sound_of_reachable {kind : DialKind} {signal : Option Bool} {s : Dial}
    (h : Reachable Dial.step (begin kind signal) s) : Sound s :=
  Reaches.invariant (sound_begin kind signal) (fun _ _ _ _ hs _ hstep => Sound.step hs hstep) h

@[simp] theorem takeWatch_phase (s : Dial) (outcome : Except DialFault Unit) :
    (s.takeWatch outcome).phase = s.phase := by
  unfold takeWatch
  split <;> rfl

/-- How a dial settled is how it stays. -/
theorem phase_of_step {s s' : Dial} {a : DialAction} {outcome : Except DialFault Unit}
    {aborted : Bool} (hstep : Dial.step s a = some s') (h : s.phase = .settled outcome aborted) :
    s'.phase = .settled outcome aborted := by
  cases a with
  | abort =>
    simp only [Dial.step] at hstep
    split at hstep
    · cases hstep
      exact h
    · cases hstep
  | opened =>
    simp only [Dial.step] at hstep
    split at hstep
    · cases hstep
      simpa using h
    · cases hstep
  | closed code =>
    simp only [Dial.step] at hstep
    split at hstep
    · cases hstep
      simpa using h
    · cases hstep
  | negotiated made =>
    simp only [Dial.step] at hstep
    split at hstep
    · cases hstep
      exact h
    · cases hstep
  | start made => simp [Dial.step, h] at hstep
  | wakeLeft =>
    simp only [Dial.step] at hstep
    split at hstep
    · cases hstep
      exact h
    · cases hstep
  | wakeRight =>
    simp only [Dial.step] at hstep
    split at hstep
    · cases hstep
      exact h
    · cases hstep
  | poll assembled => simp [Dial.step, h] at hstep

theorem phase_of_reachable {s s' : Dial} {outcome : Except DialFault Unit} {aborted : Bool}
    (h : Reachable Dial.step s s') (hphase : s.phase = .settled outcome aborted) :
    s'.phase = .settled outcome aborted :=
  Reaches.invariant (I := fun t => t.phase = .settled outcome aborted) hphase
    (fun _ _ _ _ hs _ hstep => phase_of_step hstep hs) h

/-- An aborted race does not wait for the socket. -/
theorem Sound.not_quiet {s : Dial} (h : Sound s) (hphase : s.phase = .racing)
    (hsignal : s.signal = some true) : ¬ s.Quiet := by
  rintro ⟨-, hright, hunready⟩
  have hfired := (h.wired.race hphase).2 hsignal
  rw [Unready, hphase] at hunready
  rw [hright hfired] at hunready
  cases hunready.2

/-- The microtasks of an aborted race are enough to settle it. -/
theorem Sound.settles {s : Dial} (h : Sound s) (hphase : s.phase = .racing)
    (hsignal : s.signal = some true) : ∃ s' outcome,
      Reaches Dial.step (fun _ a => a = .wakeRight ∨ a = .poll (.ok ())) s s' ∧
        s'.phase = .settled outcome true := by
  have hfired := (h.wired.race hphase).2 hsignal
  have hpoll {t : Dial} (ht : t.phase = .racing) (hr : t.right = true)
      (hs : t.signal = some true) : ∃ t' outcome,
        Dial.step t (.poll (.ok ())) = some t' ∧ t'.phase = .settled outcome true := by
    cases hl : t.left with
    | none => exact ⟨_, _, by simp [Dial.step, ht, hl, hr]; rfl, by simp [Dial.settle, hs]; rfl⟩
    | some outcome => exact ⟨_, _, by simp [Dial.step, ht, hl]; rfl, by simp [Dial.settle, hs]; rfl⟩
  cases hr : s.right with
  | true =>
    obtain ⟨t, outcome, hstep, hsettled⟩ := hpoll hphase hr hsignal
    exact ⟨t, outcome, Reaches.start.next (.inr rfl) hstep, hsettled⟩
  | false =>
    have hwake : Dial.step s .wakeRight = some { s with right := true } := by
      simp [Dial.step, hfired, hr]
    obtain ⟨t, outcome, hstep, hsettled⟩ := hpoll (t := { s with right := true }) hphase rfl hsignal
    exact ⟨t, outcome, (Reaches.start.next (.inl rfl) hwake).next (.inr rfl) hstep, hsettled⟩

end Dial

/-- **Dialling against a signal**, over every run: an aborted dial is settled without any further
event of its socket; a settled dial stays as it settled, its listener detached; one that was aborted
when it settled has no live socket, then or later; and it settles with the abort reason if the abort
came before the socket's first event. -/
theorem dial_protocol {kind : DialKind} {signal : Option Bool} {s : Dial}
    (h : Reachable Dial.step (.begin kind signal) s) :
    (s.phase = .racing → s.signal = some true →
      ¬ s.Quiet ∧ ∃ s' outcome,
        Reaches Dial.step (fun _ a => a = .wakeRight ∨ a = .poll (.ok ())) s s' ∧
          s'.phase = .settled outcome true) ∧
      ∀ outcome aborted, s.phase = .settled outcome aborted →
        s.SettledAs outcome aborted ∧
          ∀ s', Reachable Dial.step s s' →
            s'.phase = .settled outcome aborted ∧ s'.SettledAs outcome aborted := by
  have hsound := Dial.sound_of_reachable h
  refine ⟨fun hphase hsignal => ⟨hsound.not_quiet hphase hsignal, hsound.settles hphase hsignal⟩, ?_⟩
  intro outcome aborted hphase
  refine ⟨hsound.settled outcome aborted hphase, fun s' hs' => ?_⟩
  have hlater := Dial.phase_of_reachable hs' hphase
  have hsound' : s'.Sound :=
    Reaches.invariant hsound (fun _ _ _ _ hs _ hstep => Dial.Sound.step hs hstep) hs'
  exact ⟨hlater, hsound'.settled outcome aborted hlater⟩

namespace Small

/-- The socket opens, the signal is aborted before the dial is resumed: it gives a client out, over
a socket it closes. -/
theorem resolves_over_closing : ∃ s : Dial,
    s.phase = .settled (.ok ()) true ∧ s.socket = some .closing ∧
      s.SettledAs (.ok ()) true := by
  have hreach := (@Reaches.start _ _ Dial.step (fun _ _ => True)
      (.begin .cleartext (some false)))
    |>.next (a := .start (.ok ())) trivial rfl |>.next (a := .opened) trivial rfl
    |>.next (a := .abort) trivial rfl |>.next (a := .wakeLeft) trivial rfl
    |>.next (a := .wakeRight) trivial rfl |>.next (a := .poll (.ok ())) trivial rfl
  exact ⟨_, rfl, rfl, ((dial_protocol hreach).2 _ _ rfl).1⟩

end Small

end Ws
end TightbeamExt
