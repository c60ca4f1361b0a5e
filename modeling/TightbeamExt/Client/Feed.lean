import TightbeamExt.Pubsub.Drain
import TightbeamExt.Pubsub.Backplane
import TightbeamExt.Client.Gate

/-!
# One lane feeding one subscription

The lane of one subscriber, its drain task and the client's subscription at the
other end of a connection that stays up.  Updates take their stamps from the
topic's counter at the backplane, are pushed into the bounded queue — where the
policy may drop the oldest queued update or the new one — and reach the client one
after the other, each acknowledged once its delivery succeeded.

The gate baselines on whatever arrives first and the end frame of a completed
topic never passes the gate.  So a drop is reported exactly when updates on both
sides of it arrive: a drop before the first delivered update and a drop behind the
last one stay silent.

## Main definitions

* `dispatch` — the client's routing of a frame.
* `Feed`, `Feed.step` — the composed system.
* `Feed.Revealing` — the condition on a step under which drops stay visible.

## Main results

* `dropped_reported_when_revealing` — **drops and gap reports**: in runs of revealing
  steps every drop that a later frame passes is reported, and in all runs exactly
  the drops between two delivered updates are.
* `first_drop_unreported` — the run in which the first update is dropped and never
  missed.
-/

namespace TightbeamExt
namespace Client

open Transition Pubsub

/-! ### The client's end -/

/-- The byte order mark `TextDecoder` skips at the start of its input. -/
def byteOrderMark : Octets := [0xEF, 0xBB, 0xBF]

/-- `TEXT.decode`.  A decoded id is compared as the UTF-8 image of its text. -/
def decodeId (id : Octets) : Octets :=
  if byteOrderMark <+: id then id.drop byteOrderMark.length else id

/-- One subscription as its client sees it. -/
structure Listener where
  /-- The gate of the entry. -/
  gate : TopicGate
  /-- The entry is in the manager's map. -/
  mapped : Bool
  /-- The gaps reported so far. -/
  gaps : List GapReport
  /-- The frames that reached the client, oldest first. -/
  arrived : List Frame
  deriving DecidableEq, Repr

/-- A subscription that has seen nothing. -/
def Listener.new : Listener := ⟨TopicGate.new, true, [], []⟩

/-- `dispatch`: an end frame completes the subscription, an update passes the gate
and is delivered; `none` is a frame no subscription matches. -/
def dispatch (topic : Topic) (update : Frame) (l : Listener) : Option Listener :=
  if utf8 endPrefix <+: decodeId update.id then
    if l.mapped ∧ (decodeId update.id).drop (utf8 endPrefix).length = utf8 topic.name then
      some { l with mapped := false, arrived := l.arrived ++ [update] }
    else none
  else if l.mapped ∧ decodeId update.id = utf8 topic.name then
    some { l with
      gate := deliverUpdate true l.gate update.order
      gaps := l.gaps ++ (gapReport l.gate update.order).toList
      arrived := l.arrived ++ [update] }
  else none

/-- An update of the topic. -/
def IsUpdate (topic : Topic) (f : Frame) : Prop := f.id = utf8 topic.name

/-- The end frame of the topic. -/
def IsEnd (topic : Topic) (f : Frame) : Prop := f.id = utf8 (endPrefix ++ topic.name)

instance (topic : Topic) : DecidablePred (IsUpdate topic) :=
  fun f => inferInstanceAs (Decidable (f.id = utf8 topic.name))

theorem utf8_ne_nil {text : List Char} (h : text ≠ []) : utf8 text ≠ [] := by
  cases text with
  | nil => exact absurd rfl h
  | cons c cs =>
    intro hnil
    have hlen : (String.utf8EncodeChar c).length = 0 := by
      have := congrArg List.length hnil
      simp only [utf8, List.flatMap_cons, List.length_append, List.length_nil] at this
      omega
    rw [String.length_utf8EncodeChar] at hlen
    exact absurd hlen (Char.utf8Size_pos c).ne'

theorem length_decodeId_le (id : Octets) : (decodeId id).length ≤ id.length := by
  unfold decodeId
  split
  · simp
  · exact le_rfl

/-- An end frame is not an update. -/
theorem not_isUpdate_of_isEnd {topic : Topic} {f : Frame} (h : IsEnd topic f) :
    ¬ IsUpdate topic f := by
  intro hu
  have hlen := congrArg List.length (h.symm.trans hu)
  rw [utf8_append, List.length_append] at hlen
  have hpos : 0 < (utf8 endPrefix).length := by decide
  omega

/-- An update that is routed at all passes the gate. -/
theorem dispatch_of_isUpdate {topic : Topic} {f : Frame} (hf : IsUpdate topic f) {l l' : Listener}
    (h : dispatch topic f l = some l') :
    l'.gate = deliverUpdate true l.gate f.order ∧
      l'.gaps = l.gaps ++ (gapReport l.gate f.order).toList ∧ l'.arrived = l.arrived ++ [f] := by
  unfold dispatch at h
  split at h
  · -- what remains behind `end/` is shorter than the topic
    next hend =>
    exfalso
    split at h
    · next hid =>
      have hlen := congrArg List.length hid.2
      rw [List.length_drop] at hlen
      have hle := length_decodeId_le f.id
      have hid' : f.id.length = (utf8 topic.name).length := congrArg List.length hf
      have hpos := List.length_pos_iff.mpr (utf8_ne_nil topic.nonempty)
      have hfour : (utf8 endPrefix).length = 4 := by decide
      omega
    · cases h
  · split at h
    · cases h
      exact ⟨rfl, rfl, rfl⟩
    · cases h

/-- An end frame that is routed at all never sees the gate. -/
theorem dispatch_of_isEnd {topic : Topic} {f : Frame} (hf : IsEnd topic f) {l l' : Listener}
    (h : dispatch topic f l = some l') :
    l'.gate = l.gate ∧ l'.gaps = l.gaps ∧ l'.arrived = l.arrived ++ [f] := by
  have hid : f.id = utf8 endPrefix ++ utf8 topic.name := by rw [← utf8_append]; exact hf
  have hdecode : decodeId f.id = f.id := by
    unfold decodeId
    rw [if_neg]
    rw [hid, show utf8 endPrefix = [0x65, 0x6E, 0x64, 0x2F] by decide]
    simp [byteOrderMark, List.cons_prefix_cons]
  unfold dispatch at h
  rw [hdecode, hid, if_pos (List.prefix_append _ _)] at h
  split at h
  · cases h
    exact ⟨rfl, rfl, rfl⟩
  · cases h

/-! ### The composed system -/

/-- The lane, the topic's counter and the subscription. -/
structure Feed where
  /-- The subscriber and its drain task. -/
  lane : DrainSys
  /-- The last stamp the backplane gave out for the topic. -/
  stamp : ℕ
  /-- The client's end. -/
  listener : Listener

/-- Who moves. -/
inductive FeedAction
  /-- A stamp of the topic is claimed and its frame never handed to this lane. -/
  | claim
  /-- An update is stamped and pushed. -/
  | publish (onFull : DeliveryPolicy) (payload : Octets)
  /-- The topic completes. -/
  | finish
  /-- The next step of a running `push` or `finish`. -/
  | call (i : ℕ)
  /-- The next step of the drain task. -/
  | drain (e : LinkEvent)

/-- The frame the drain task has popped and not yet seen acknowledged. -/
def flying : DrainPc → List Frame
  | .emit f => [f]
  | .slotWait f => [f]
  | _ => []

namespace Feed

/-- A fresh subscription; the stamps claimed before it are the first steps of a
run. -/
def init : Feed := ⟨DrainSys.init, 0, Listener.new⟩

/-- The shared fields of the subscriber. -/
abbrev cell (s : Feed) : Cell := s.lane.cell

/-- The frames popped or queued, oldest first. -/
def line (s : Feed) : List Frame := s.cell.history.popped ++ s.cell.lane.queue

/-- The updates the policy dropped. -/
def dropped (s : Feed) : List Frame := s.cell.history.evicted ++ s.cell.history.refused

variable (b : FrameBuilder) (capacity : ℕ) (topic : Topic)

/-- One step.  The policy never gives up on the connection, a completed topic is
not published to, the link stays up and every delivery succeeds. -/
def step (s : Feed) : FeedAction → Option Feed
  | .claim => some { s with stamp := saturatingSucc s.stamp }
  | .publish onFull payload =>
      if s.lane.finishing ∨ s.cell.offered capacity onFull topic = .disconnect then none
      else
        match updateFrame b topic (saturatingSucc s.stamp) payload with
        | .error _ => none
        | .ok f =>
            (s.lane.step capacity topic (.push onFull f)).map fun lane =>
              { s with lane := lane, stamp := saturatingSucc s.stamp }
  | .finish =>
      match endFrame b topic (saturatingSucc s.stamp) with
      | .error _ => none
      | .ok f =>
          (s.lane.step capacity topic (.finish f)).map fun lane =>
            { s with lane := lane, stamp := saturatingSucc s.stamp }
  | .call i => (s.lane.step capacity topic (.call i)).map fun lane => { s with lane := lane }
  | .drain e =>
      match s.lane.pc, e with
      | .emit f, .accepted =>
          -- the acknowledgment follows the delivery
          (dispatch topic f s.listener).bind fun l =>
            (s.lane.step capacity topic (.drain e)).map fun lane =>
              { s with lane := lane, listener := l }
      | _, .refused => none
      | _, .failed => none
      | _, .slotLost => none
      | _, _ => (s.lane.step capacity topic (.drain e)).map fun lane => { s with lane := lane }

/-! ### What one step does -/

/-- The same frames are queued and the same happened so far. -/
def SameLane (c c' : Cell) : Prop := c'.lane.queue = c.lane.queue ∧ c'.history = c.history

/-- A step after the critical section of a call. -/
def Quiet (op : CellOp) : Prop := op = .countDrop ∨ op = .wake ∨ op = .storeFinished

theorem Quiet.sameLane {op : CellOp} (h : Quiet op) (c : Cell) : SameLane c (op.exec c) := by
  rcases h with rfl | rfl | rfl
  · exact ⟨rfl, rfl⟩
  · exact ⟨rfl, rfl⟩
  · exact ⟨rfl, rfl⟩

/-- One step of the drain task of a link that stays up: it pops, has a frame
acknowledged, or does nothing to the frames. -/
theorem drainStep_cases {e : LinkEvent} {c c' : Cell} {pc pc' : DrainPc}
    (h : drainStep e c pc = some (c', pc')) (hr : e ≠ .refused) (hf : e ≠ .failed)
    (hl : e ≠ .slotLost) :
    (∃ f q, pc = .pop ∧ c.lane.queue = f :: q ∧ c'.lane.queue = q ∧
        c'.history = { c.history with popped := c.history.popped ++ [f] } ∧ flying pc' = [f]) ∨
      (∃ f, pc = .emit f ∧ e = .accepted ∧ SameLane c c' ∧ flying pc' = []) ∨
      ((∀ f, pc = .emit f → e ≠ .accepted) ∧ SameLane c c' ∧ flying pc' = flying pc) := by
  have hafter : ∀ lost, flying (DrainPc.afterEmit lost) = [] := by
    intro lost
    cases lost with
    | false => rfl
    | true => rfl
  cases drainMove_of_drainStep h with
  | stop => exact .inr (.inr ⟨by simp, ⟨rfl, rfl⟩, rfl⟩)
  | goOn => exact .inr (.inr ⟨by simp, ⟨rfl, rfl⟩, rfl⟩)
  | dry hq => exact .inr (.inr ⟨by simp, ⟨hq.symm, rfl⟩, rfl⟩)
  | take f q hq => exact .inl ⟨f, q, rfl, hq, rfl, rfl, rfl⟩
  | complete => exact .inr (.inr ⟨by simp, ⟨rfl, rfl⟩, rfl⟩)
  | idle => exact .inr (.inr ⟨by simp, ⟨rfl, rfl⟩, rfl⟩)
  | permit n => exact .inr (.inr ⟨by simp, ⟨rfl, rfl⟩, rfl⟩)
  | park n => exact .inr (.inr ⟨by simp, ⟨rfl, rfl⟩, rfl⟩)
  | woken => exact .inr (.inr ⟨by simp, ⟨rfl, rfl⟩, rfl⟩)
  | accepted f => exact .inr (.inl ⟨f, rfl, rfl, ⟨rfl, rfl⟩, rfl⟩)
  | exhausted f => exact .inr (.inr ⟨by simp, ⟨rfl, rfl⟩, rfl⟩)
  | refused f => exact absurd rfl hr
  | failed f => exact absurd rfl hf
  | slotFreed f => exact .inr (.inr ⟨by simp, ⟨rfl, rfl⟩, rfl⟩)
  | slotLost f => exact absurd rfl hl
  | emptied lost => exact .inr (.inr ⟨by simp, ⟨rfl, rfl⟩, rfl⟩)
  | settled lost => exact .inr (.inr ⟨by simp, ⟨rfl, rfl⟩, hafter lost⟩)
  | signal lost => exact .inr (.inr ⟨by simp, ⟨rfl, rfl⟩, hafter lost⟩)
  | close => exact .inr (.inr ⟨by simp, ⟨rfl, rfl⟩, rfl⟩)
  | wake => exact .inr (.inr ⟨by simp, ⟨rfl, rfl⟩, rfl⟩)

/-- The calls running on the lane are past their critical sections. -/
def CallsQuiet (s : Feed) : Prop := ∀ ops ∈ s.lane.calls, ∀ op ∈ ops, Quiet op

/-- What one step does to the frames and to the client. -/
inductive Move (capacity : ℕ) (topic : Topic) (s s' : Feed) : FeedAction → Prop
  /-- Nothing. -/
  | still {a : FeedAction} (hcell : SameLane s.cell s'.cell) (hfly : flying s'.lane.pc = flying s.lane.pc)
      (hfin : s'.lane.finishing = s.lane.finishing)
      (hstamp : s'.stamp = s.stamp ∨ s'.stamp = saturatingSucc s.stamp)
      (hlistener : s'.listener = s.listener) : Move capacity topic s s' a
  /-- The drain task takes a frame off the queue. -/
  | popped {a : FeedAction} (f : Frame) (q : List Frame) (hq : s.cell.lane.queue = f :: q)
      (hq' : s'.cell.lane.queue = q)
      (hhist : s'.cell.history = { s.cell.history with popped := s.cell.history.popped ++ [f] })
      (hfly : flying s.lane.pc = []) (hfly' : flying s'.lane.pc = [f])
      (hfin : s'.lane.finishing = s.lane.finishing) (hstamp : s'.stamp = s.stamp)
      (hlistener : s'.listener = s.listener) : Move capacity topic s s' a
  /-- The frame in flight reaches the client. -/
  | arrived {a : FeedAction} (f : Frame) (hcell : SameLane s.cell s'.cell) (hfly : flying s.lane.pc = [f])
      (hfly' : flying s'.lane.pc = []) (hfin : s'.lane.finishing = s.lane.finishing)
      (hstamp : s'.stamp = s.stamp) (hlistener : dispatch topic f s.listener = some s'.listener) :
      Move capacity topic s s' a
  /-- An update is handed to the lane. -/
  | published {onFull : DeliveryPolicy} {payload : Octets} (f : Frame) (hf : IsUpdate topic f)
      (horder : f.order = saturatingSucc s.stamp)
      (ho : s.cell.offered capacity onFull topic ≠ .disconnect)
      (hcell : s'.cell = s.cell.offer f (s.cell.offered capacity onFull topic))
      (hpc : s'.lane.pc = s.lane.pc) (hopen : s.lane.finishing = false)
      (hfin : s'.lane.finishing = false) (hstamp : s'.stamp = saturatingSucc s.stamp)
      (hlistener : s'.listener = s.listener) : Move capacity topic s s' (.publish onFull payload)
  /-- The end frame enters the queue. -/
  | finished (f : Frame) (hf : IsEnd topic f) (horder : f.order = saturatingSucc s.stamp)
      (hcell : s'.cell = s.cell.enqueue (.completion f)) (hpc : s'.lane.pc = s.lane.pc)
      (hopen : s.lane.finishing = false) (hfin : s'.lane.finishing = true)
      (hstamp : s'.stamp = saturatingSucc s.stamp) (hlistener : s'.listener = s.listener) :
      Move capacity topic s s' .finish

variable {b : FrameBuilder} {capacity : ℕ} {topic : Topic}

/-- A step of the drain task is a pop, an arrival or nothing. -/
theorem move_drain {s s' : Feed} {e : LinkEvent} (h : s.step b capacity topic (.drain e) = some s') :
    Move capacity topic s s' (.drain e) ∧ s'.lane.calls = s.lane.calls := by
  have hdrain : ∀ lane, s.lane.step capacity topic (.drain e) = some lane →
      ∃ c pc, drainStep e s.cell s.lane.pc = some (c, pc) ∧
        lane = { s.lane with cell := c, pc := pc } := by
    intro lane hlane
    simp only [DrainSys.step, Option.map_eq_some_iff] at hlane
    obtain ⟨⟨c, pc⟩, hstep, rfl⟩ := hlane
    exact ⟨c, pc, hstep, rfl⟩
  simp only [step] at h
  split at h
  · -- the acknowledged emit
    next f hpc =>
    simp only [Option.bind_eq_some_iff, Option.map_eq_some_iff] at h
    obtain ⟨l, hl, lane, hlane, rfl⟩ := h
    obtain ⟨c, pc, hstep, rfl⟩ := hdrain lane hlane
    rcases drainStep_cases hstep (by simp) (by simp) (by simp) with
      ⟨g, q, hpop, _⟩ | ⟨g, hemit, _, hsame, hfly⟩ | ⟨hnot, _⟩
    · rw [hpc] at hpop; cases hpop
    · refine ⟨.arrived f hsame ?_ hfly rfl rfl hl, rfl⟩
      rw [hpc]; rfl
    · exact absurd rfl (hnot f hpc)
  · cases h
  · cases h
  · cases h
  · next hr hf hl hnot =>
    simp only [Option.map_eq_some_iff] at h
    obtain ⟨lane, hlane, rfl⟩ := h
    obtain ⟨c, pc, hstep, rfl⟩ := hdrain lane hlane
    rcases drainStep_cases hstep hr hf hl with
      ⟨g, q, hpop, hq, hq', hhist, hfly⟩ | ⟨g, hemit, he, _⟩ | ⟨_, hsame, hfly⟩
    · refine ⟨.popped g q hq hq' hhist ?_ hfly rfl rfl rfl, rfl⟩
      rw [hpop]; rfl
    · exact absurd he (hnot g hemit)
    · exact ⟨.still hsame hfly rfl (.inl rfl) rfl, rfl⟩

/-- Every step is one of the moves, and keeps the calls past their critical
sections. -/
theorem step_move {s s' : Feed} {a : FeedAction} (hq : CallsQuiet s)
    (h : s.step b capacity topic a = some s') : Move capacity topic s s' a ∧ CallsQuiet s' := by
  have hbegin : ∀ op : CellOp, ∀ ops ∈ (s.lane.begin op).calls, ∀ o ∈ ops, Quiet o := by
    intro op ops hops o ho
    simp only [DrainSys.begin, List.mem_append, List.mem_singleton] at hops
    rcases hops with hops | rfl
    · exact hq ops hops o ho
    · exact CellOp.mem_followUps ho
  cases a with
  | claim =>
    simp only [step, Option.some.injEq] at h
    subst h
    exact ⟨.still ⟨rfl, rfl⟩ rfl rfl (.inr rfl) rfl, hq⟩
  | publish onFull payload =>
    simp only [step] at h
    split at h
    · cases h
    · next hguard =>
      push Not at hguard
      split at h
      · cases h
      · next f hf =>
        simp only [DrainSys.step, Option.map_some, Option.some.injEq] at h
        subst h
        have hopen : s.lane.finishing = false := by simpa using hguard.1
        refine ⟨.published f ?_ (order_of_updateFrame hf) hguard.2 rfl rfl hopen hopen
          rfl rfl, hbegin _⟩
        exact congrArg Frame.id (build_eq_ok hf)
  | finish =>
    simp only [step] at h
    split at h
    · cases h
    · next f hf =>
      simp only [DrainSys.step, Option.map_eq_some_iff] at h
      obtain ⟨lane, hlane, rfl⟩ := h
      split at hlane
      · cases hlane
      · next hopen =>
        cases hlane
        refine ⟨.finished f (id_of_endFrame hf) (order_of_endFrame hf) rfl rfl (by simpa using hopen)
          rfl rfl rfl, hbegin _⟩
  | call i =>
    simp only [step, DrainSys.step, Option.map_eq_some_iff] at h
    obtain ⟨lane, hlane, rfl⟩ := h
    split at hlane
    · next op rest hcalls =>
      cases hlane
      have hmem := List.mem_of_getElem? hcalls
      have hop := hq _ hmem op (by simp)
      refine ⟨.still (hop.sameLane _) rfl rfl (.inl rfl) rfl, ?_⟩
      intro ops hops o ho
      rcases List.mem_or_eq_of_mem_set hops with hops | rfl
      · exact hq ops hops o ho
      · rcases List.mem_append.mp ho with ho | ho
        · exact CellOp.mem_followUps ho
        · exact hq _ hmem o (by simp [ho])
    · cases hlane
  | drain e =>
    obtain ⟨hmove, hcalls⟩ := move_drain h
    refine ⟨hmove, ?_⟩
    intro ops hops
    rw [hcalls] at hops
    exact hq ops hops

/-! ### The lane in order -/

/-- `a` is an update ahead of `b`: its stamp is lower, or the counter is stuck at
its maximum. -/
def Before (topic : Topic) (a b : Frame) : Prop :=
  IsUpdate topic a ∧ (a.order < b.order ∨ (a.order = u64Max ∧ b.order = u64Max))

/-- The orders of the updates that reached the client. -/
def delivered (topic : Topic) (s : Feed) : List ℕ :=
  (s.listener.arrived.filter fun f => decide (IsUpdate topic f)).map Frame.order

theorem mem_delivered {s : Feed} {d : ℕ} :
    d ∈ s.delivered topic ↔ ∃ f ∈ s.listener.arrived, IsUpdate topic f ∧ f.order = d := by
  simp [delivered, and_assoc]

/-- What holds in every run. -/
structure Inv (topic : Topic) (s : Feed) : Prop where
  /-- What was popped has arrived or is in flight. -/
  passed : s.cell.history.popped = s.listener.arrived ++ flying s.lane.pc
  /-- Popped and queued frames stand in stamp order, the end frame last. -/
  ordered : s.line.Pairwise (Before topic)
  /-- They are updates or the end frame. -/
  kinds : ∀ f ∈ s.line, IsUpdate topic f ∨ IsEnd topic f
  /-- There is no end frame before the topic completes. -/
  updates : s.lane.finishing = false → ∀ f ∈ s.line, IsUpdate topic f
  /-- No stamp is above the counter. -/
  bounded : ∀ f ∈ s.line ++ s.dropped, f.order ≤ s.stamp
  /-- The counter is a `u64`. -/
  counter : s.stamp ≤ u64Max
  /-- A dropped stamp is on no popped or queued frame. -/
  apart : ∀ x ∈ s.dropped, ∀ f ∈ s.line, f.order = x.order → x.order = u64Max
  /-- The last update handed over is above every dropped one, and still there
  unless it was refused. -/
  latest : ∀ x ∈ s.dropped, ∃ f ∈ s.cell.history.handed.getLast?,
    x.order ≤ f.order ∧ (f ∈ s.line ∨ f ∈ s.cell.history.refused)
  /-- The gate stands where the delivered updates left it. -/
  baseline : Baseline s.listener.gate s.listener.gaps (s.delivered topic)
  /-- Running calls are past their critical sections. -/
  quiet : CallsQuiet s

theorem inv_init : Inv topic init where
  passed := rfl
  ordered := List.Pairwise.nil
  kinds := by intro f hf; cases hf
  updates := by intro _ f hf; cases hf
  bounded := by intro f hf; cases hf
  counter := Nat.zero_le _
  apart := by intro x hx; cases hx
  latest := by intro x hx; cases hx
  baseline := baseline_new
  quiet := by intro ops h; cases h

theorem le_saturatingSucc {n : ℕ} (h : n ≤ u64Max) : n ≤ saturatingSucc n := by
  unfold saturatingSucc
  omega

theorem saturatingSucc_le (n : ℕ) : saturatingSucc n ≤ u64Max := min_le_right _ _

/-- A fresh stamp is above every frame so far, or the counter is stuck. -/
theorem fresh_stamp {n m : ℕ} (hn : n ≤ u64Max) (hm : m ≤ n) :
    m < saturatingSucc n ∨ (m = u64Max ∧ saturatingSucc n = u64Max) := by
  unfold saturatingSucc
  omega

theorem SameLane.line {s s' : Feed} (h : SameLane s.cell s'.cell) : s'.line = s.line := by
  rw [Feed.line, Feed.line, h.1, h.2]

theorem SameLane.dropped {s s' : Feed} (h : SameLane s.cell s'.cell) : s'.dropped = s.dropped := by
  rw [Feed.dropped, Feed.dropped, h.2]

/-- A frame that arrived stands in the line, behind the frames ahead of it. -/
theorem Inv.line_eq {s : Feed} (h : Inv topic s) :
    s.line = s.listener.arrived ++ (flying s.lane.pc ++ s.cell.lane.queue) := by
  rw [line, h.passed, List.append_assoc]

/-- Nothing in the line changes, nor anything dropped. -/
theorem Inv.of_same {s s' : Feed} (h : Inv topic s) (hline : s'.line = s.line)
    (hdropped : s'.dropped = s.dropped)
    (hhanded : s'.cell.history.handed = s.cell.history.handed)
    (hrefused : s'.cell.history.refused = s.cell.history.refused)
    (hfin : s'.lane.finishing = s.lane.finishing)
    (hstamp : s'.stamp = s.stamp ∨ s'.stamp = saturatingSucc s.stamp)
    (hpassed : s'.cell.history.popped = s'.listener.arrived ++ flying s'.lane.pc)
    (hbase : Baseline s'.listener.gate s'.listener.gaps (s'.delivered topic))
    (hquiet : CallsQuiet s') : Inv topic s' where
  passed := hpassed
  ordered := by rw [hline]; exact h.ordered
  kinds := by rw [hline]; exact h.kinds
  updates := by rw [hline, hfin]; exact h.updates
  bounded := by
    have hle : s.stamp ≤ s'.stamp := by
      rcases hstamp with he | he
      · exact he.ge
      · rw [he]; exact le_saturatingSucc h.counter
    intro f hf
    rw [hline, hdropped] at hf
    exact (h.bounded f hf).trans hle
  counter := by
    rcases hstamp with he | he
    · rw [he]; exact h.counter
    · rw [he]; exact saturatingSucc_le _
  apart := by rw [hline, hdropped]; exact h.apart
  latest := by rw [hline, hdropped, hhanded, hrefused]; exact h.latest
  baseline := hbase
  quiet := hquiet

/-- The gate and its reports follow the arrival of a frame of the line. -/
theorem Inv.baseline_arrived {s s' : Feed} (h : Inv topic s) {f : Frame}
    (hfly : flying s.lane.pc = [f]) (hl : dispatch topic f s.listener = some s'.listener) :
    s'.listener.arrived = s.listener.arrived ++ [f] ∧
      Baseline s'.listener.gate s'.listener.gaps (s'.delivered topic) := by
  have hline := h.line_eq
  rw [hfly, List.singleton_append, List.append_cons] at hline
  have hmem : f ∈ s.line := by rw [hline]; simp
  rcases h.kinds f hmem with hf | hf
  · obtain ⟨hgate, hgaps, harr⟩ := dispatch_of_isUpdate hf hl
    refine ⟨harr, ?_⟩
    have hdel : s'.delivered topic = s.delivered topic ++ [f.order] := by
      simp [delivered, harr, hf]
    rw [hgate, hgaps, hdel]
    refine baseline_deliverUpdate h.baseline ?_
    -- everything delivered stands ahead of the frame
    intro a ha
    obtain ⟨u, hu, _, rfl⟩ := mem_delivered.mp ha
    have hpair := h.ordered
    rw [hline, List.append_assoc, List.pairwise_append] at hpair
    have hbefore := (hpair.2.2 u hu f (by simp)).2
    omega
  · obtain ⟨hgate, hgaps, harr⟩ := dispatch_of_isEnd hf hl
    refine ⟨harr, ?_⟩
    have hdel : s'.delivered topic = s.delivered topic := by
      simp [delivered, harr, not_isUpdate_of_isEnd hf]
    rw [hgate, hgaps, hdel]
    exact h.baseline

/-- What a push does to the frames: the update is refused, or it enters behind what
is left after the eviction. -/
theorem line_offer {s s' : Feed} {f : Frame} {o : Cell.Offer} (ho : o ≠ .disconnect)
    (hcell : s'.cell = s.cell.offer f o) :
    (o = .refused ∧ s'.line = s.line ∧ s'.dropped = s.dropped ++ [f] ∧
        s'.cell.history.refused = s.cell.history.refused ++ [f]) ∨
      ∃ lost post, s.cell.lane.queue = lost ++ post ∧
        s'.line = s.cell.history.popped ++ post ++ [f] ∧
        (∀ x, x ∈ s'.dropped ↔ x ∈ s.dropped ∨ x ∈ lost) ∧ (lost ≠ [] → o = .replaced) := by
  cases o with
  | queued =>
    refine .inr ⟨[], s.cell.lane.queue, rfl, ?_, ?_, by simp⟩
    · simp [line, hcell, Cell.offer, Cell.enqueue, Cell.hand]
    · simp [dropped, hcell, Cell.offer, Cell.enqueue, Cell.hand]
  | replaced =>
    refine .inr ⟨s.cell.lane.queue.take 1, s.cell.lane.queue.tail, ?_, ?_, ?_, fun _ => rfl⟩
    · rw [← List.drop_one, List.take_append_drop]
    · simp [line, hcell, Cell.offer, Cell.enqueue, Cell.evict, Cell.hand]
    · intro x
      simp only [dropped, hcell, Cell.offer, Cell.enqueue, Cell.evict, Cell.hand, List.mem_append]
      tauto
  | refused =>
    refine .inl ⟨rfl, ?_, ?_, ?_⟩
    · simp [line, hcell, Cell.offer, Cell.refuse, Cell.hand]
    · simp [dropped, hcell, Cell.offer, Cell.refuse, Cell.hand]
    · simp [hcell, Cell.offer, Cell.refuse, Cell.hand]
  | disconnect => exact absurd rfl ho

theorem handed_offer {c : Cell} {f : Frame} {o : Cell.Offer} :
    (c.offer f o).history.handed = c.history.handed ++ [f] := by
  cases o <;> rfl

theorem popped_offer {c : Cell} {f : Frame} {o : Cell.Offer} :
    (c.offer f o).history.popped = c.history.popped := by
  cases o <;> rfl

/-- A freshly stamped frame goes behind whatever is left of a line of updates. -/
theorem Inv.ordered_concat {s : Feed} (h : Inv topic s) (hopen : s.lane.finishing = false)
    {kept : List Frame} (hkept : kept.Sublist s.line) {f : Frame}
    (horder : f.order = saturatingSucc s.stamp) : (kept ++ [f]).Pairwise (Before topic) := by
  refine List.pairwise_concat (h.ordered.sublist hkept) ?_
  intro a ha
  have hline := hkept.subset ha
  refine ⟨h.updates hopen a hline, ?_⟩
  rw [horder]
  exact fresh_stamp h.counter (h.bounded a (List.mem_append_left _ hline))

/-- A stamp that repeats one of the frames so far is the stuck one. -/
theorem Inv.eq_max_of_fresh {s : Feed} (h : Inv topic s) {g : Frame}
    (hg : g ∈ s.line ++ s.dropped) (he : g.order = saturatingSucc s.stamp) : g.order = u64Max := by
  have hle := h.bounded g hg
  rcases fresh_stamp h.counter hle with hlt | ⟨hmax, _⟩
  · omega
  · exact hmax

/-- A refused update leaves the line alone. -/
theorem Inv.refused {s s' : Feed} (h : Inv topic s) {f : Frame}
    (horder : f.order = saturatingSucc s.stamp) (hline : s'.line = s.line)
    (hdropped : s'.dropped = s.dropped ++ [f])
    (hrefused : s'.cell.history.refused = s.cell.history.refused ++ [f])
    (hhanded : s'.cell.history.handed = s.cell.history.handed ++ [f])
    (hopen : s.lane.finishing = false) (hstamp : s'.stamp = saturatingSucc s.stamp)
    (hpassed : s'.cell.history.popped = s'.listener.arrived ++ flying s'.lane.pc)
    (hbase : Baseline s'.listener.gate s'.listener.gaps (s'.delivered topic))
    (hquiet : CallsQuiet s') : Inv topic s' where
  passed := hpassed
  ordered := by rw [hline]; exact h.ordered
  kinds := by rw [hline]; exact h.kinds
  updates := by rw [hline]; exact fun _ => h.updates hopen
  bounded := by
    intro g hg
    rw [hline, hdropped, ← List.append_assoc, List.mem_append] at hg
    rw [hstamp]
    rcases hg with hg | hg
    · exact (h.bounded g hg).trans (le_saturatingSucc h.counter)
    · rw [List.mem_singleton.mp hg, horder]
  counter := by rw [hstamp]; exact saturatingSucc_le _
  apart := by
    intro x hx g hg he
    rw [hline] at hg
    rw [hdropped, List.mem_append] at hx
    rcases hx with hx | hx
    · exact h.apart x hx g hg he
    · rw [List.mem_singleton.mp hx] at he ⊢
      rw [← he]
      exact h.eq_max_of_fresh (List.mem_append_left _ hg) (he.trans horder)
  latest := by
    intro x hx
    rw [hhanded, hrefused]
    refine ⟨f, by simp, ?_, Or.inr (by simp)⟩
    rw [hdropped, List.mem_append] at hx
    rcases hx with hx | hx
    · rw [horder]
      exact (h.bounded x (List.mem_append_right _ hx)).trans (le_saturatingSucc h.counter)
    · rw [List.mem_singleton.mp hx]
  baseline := hbase
  quiet := hquiet

/-- An accepted update enters behind what the eviction left. -/
theorem Inv.accepted {s s' : Feed} (h : Inv topic s) {f : Frame} {lost post : List Frame}
    (hf : IsUpdate topic f) (horder : f.order = saturatingSucc s.stamp)
    (hqueue : s.cell.lane.queue = lost ++ post)
    (hline : s'.line = s.cell.history.popped ++ post ++ [f])
    (hdropped : ∀ x, x ∈ s'.dropped ↔ x ∈ s.dropped ∨ x ∈ lost)
    (hhanded : s'.cell.history.handed = s.cell.history.handed ++ [f])
    (hopen : s.lane.finishing = false) (hstamp : s'.stamp = saturatingSucc s.stamp)
    (hpassed : s'.cell.history.popped = s'.listener.arrived ++ flying s'.lane.pc)
    (hbase : Baseline s'.listener.gate s'.listener.gaps (s'.delivered topic))
    (hquiet : CallsQuiet s') : Inv topic s' := by
  have hold : s.line = s.cell.history.popped ++ (lost ++ post) := by rw [line, hqueue]
  have hkept : (s.cell.history.popped ++ post).Sublist s.line := by
    rw [hold]
    exact List.Sublist.append (List.Sublist.refl _) (List.sublist_append_right _ _)
  have hlost : ∀ x ∈ lost, x ∈ s.line := by
    intro x hx
    rw [hold]
    simp [hx]
  have hseen : ∀ x ∈ s'.dropped, x ∈ s.line ++ s.dropped := by
    intro x hx
    rcases (hdropped x).mp hx with hx | hx
    · exact List.mem_append_right _ hx
    · exact List.mem_append_left _ (hlost x hx)
  refine ⟨hpassed, ?_, ?_, ?_, ?_, ?_, ?_, ?_, hbase, hquiet⟩
  · rw [hline]
    exact h.ordered_concat hopen hkept horder
  · intro g hg
    rw [hline, List.mem_append] at hg
    rcases hg with hg | hg
    · exact h.kinds g (hkept.subset hg)
    · rw [List.mem_singleton.mp hg]
      exact Or.inl hf
  · intro _ g hg
    rw [hline, List.mem_append] at hg
    rcases hg with hg | hg
    · exact h.updates hopen g (hkept.subset hg)
    · rw [List.mem_singleton.mp hg]
      exact hf
  · intro g hg
    rw [hstamp]
    have hmono := le_saturatingSucc h.counter
    rcases List.mem_append.mp hg with hg | hg
    · rw [hline, List.mem_append] at hg
      rcases hg with hg | hg
      · exact (h.bounded g (List.mem_append_left _ (hkept.subset hg))).trans hmono
      · rw [List.mem_singleton.mp hg, horder]
    · exact (h.bounded g (hseen g hg)).trans hmono
  · rw [hstamp]
    exact saturatingSucc_le _
  · intro x hx g hg he
    rw [hline, List.mem_append] at hg
    rcases hg with hg | hg
    · rcases (hdropped x).mp hx with hx | hx
      · exact h.apart x hx g (hkept.subset hg) he
      · -- an evicted frame stood between the popped ones and the rest of the queue
        have hpair := h.ordered
        rw [hold, List.pairwise_append, List.pairwise_append] at hpair
        rcases List.mem_append.mp hg with hg | hg
        · have := (hpair.2.2 g hg x (by simp [hx])).2
          omega
        · have := (hpair.2.1.2.2 x hx g hg).2
          omega
    · rw [List.mem_singleton.mp hg] at he
      exact h.eq_max_of_fresh (hseen x hx) (he.symm.trans horder)
  · -- the update just handed in is in the line, and none that was dropped is above it
    intro x hx
    rw [hhanded, hline]
    refine ⟨f, by simp, ?_, Or.inl (by simp)⟩
    rw [horder]
    exact (h.bounded x (hseen x hx)).trans (le_saturatingSucc h.counter)

/-- The end frame goes behind the updates. -/
theorem Inv.finished {s s' : Feed} (h : Inv topic s) {f : Frame} (hf : IsEnd topic f)
    (horder : f.order = saturatingSucc s.stamp) (hline : s'.line = s.line ++ [f])
    (hdropped : s'.dropped = s.dropped)
    (hrefused : s'.cell.history.refused = s.cell.history.refused)
    (hhanded : s'.cell.history.handed = s.cell.history.handed)
    (hopen : s.lane.finishing = false) (hfin : s'.lane.finishing = true)
    (hstamp : s'.stamp = saturatingSucc s.stamp)
    (hpassed : s'.cell.history.popped = s'.listener.arrived ++ flying s'.lane.pc)
    (hbase : Baseline s'.listener.gate s'.listener.gaps (s'.delivered topic))
    (hquiet : CallsQuiet s') : Inv topic s' where
  passed := hpassed
  ordered := by rw [hline]; exact h.ordered_concat hopen (List.Sublist.refl _) horder
  kinds := by
    intro g hg
    rw [hline, List.mem_append] at hg
    rcases hg with hg | hg
    · exact h.kinds g hg
    · rw [List.mem_singleton.mp hg]
      exact Or.inr hf
  updates := by rw [hfin]; intro hcontra; cases hcontra
  bounded := by
    intro g hg
    rw [hline, hdropped] at hg
    simp only [List.append_assoc, List.mem_append, List.mem_singleton] at hg
    rw [hstamp]
    have hmono := le_saturatingSucc h.counter
    rcases hg with hg | rfl | hg
    · exact (h.bounded g (List.mem_append_left _ hg)).trans hmono
    · exact horder.le
    · exact (h.bounded g (List.mem_append_right _ hg)).trans hmono
  counter := by rw [hstamp]; exact saturatingSucc_le _
  apart := by
    intro x hx g hg he
    rw [hdropped] at hx
    rw [hline, List.mem_append] at hg
    rcases hg with hg | hg
    · exact h.apart x hx g hg he
    · rw [List.mem_singleton.mp hg] at he
      exact h.eq_max_of_fresh (List.mem_append_right _ hx) (he.symm.trans horder)
  latest := by
    intro x hx
    rw [hdropped] at hx
    obtain ⟨g, hg, hle, hor⟩ := h.latest x hx
    rw [hhanded, hrefused, hline]
    refine ⟨g, hg, hle, ?_⟩
    rcases hor with hor | hor
    · exact Or.inl (List.mem_append_left _ hor)
    · exact Or.inr hor
  baseline := hbase
  quiet := hquiet

/-- Every move keeps the invariant. -/
theorem Inv.move {s s' : Feed} {a : FeedAction} (h : Inv topic s)
    (hm : Move capacity topic s s' a) (hq : CallsQuiet s') : Inv topic s' := by
  have hsame : ∀ t t' : Feed, t'.listener = t.listener → t'.delivered topic = t.delivered topic := by
    intro t t' ht
    rw [delivered, delivered, ht]
  cases hm with
  | still hcell hfly hfin hstamp hlistener =>
    refine h.of_same hcell.line hcell.dropped ?_ ?_ hfin hstamp ?_ ?_ hq
    · rw [hcell.2]
    · rw [hcell.2]
    · rw [hcell.2, hlistener, hfly]; exact h.passed
    · rw [hsame s s' hlistener, hlistener]; exact h.baseline
  | popped f q hqueue hqueue' hhist hfly hfly' hfin hstamp hlistener =>
    refine h.of_same ?_ ?_ ?_ ?_ hfin (.inl hstamp) ?_ ?_ hq
    · simp [line, hhist, hqueue, hqueue']
    · simp [dropped, hhist]
    · rw [hhist]
    · rw [hhist]
    · rw [hhist, hlistener, hfly']
      have hpassed := h.passed
      rw [hfly, List.append_nil] at hpassed
      show s.cell.history.popped ++ [f] = s.listener.arrived ++ [f]
      rw [hpassed]
    · rw [hsame s s' hlistener, hlistener]; exact h.baseline
  | arrived f hcell hfly hfly' hfin hstamp hlistener =>
    obtain ⟨harrived, hbase⟩ := h.baseline_arrived hfly hlistener
    refine h.of_same hcell.line hcell.dropped ?_ ?_ hfin (.inl hstamp) ?_ hbase hq
    · rw [hcell.2]
    · rw [hcell.2]
    · rw [hcell.2, hfly', harrived, List.append_nil, h.passed, hfly]
  | published f hf horder ho hcell hpc hopen hfin hstamp hlistener =>
    have hpassed : s'.cell.history.popped = s'.listener.arrived ++ flying s'.lane.pc := by
      rw [hcell, popped_offer, hlistener, hpc]; exact h.passed
    have hbase : Baseline s'.listener.gate s'.listener.gaps (s'.delivered topic) := by
      rw [hsame s s' hlistener, hlistener]; exact h.baseline
    have hhanded : s'.cell.history.handed = s.cell.history.handed ++ [f] := by
      rw [hcell, handed_offer]
    rcases line_offer ho hcell with
      ⟨_, hline, hdropped, hrefused⟩ | ⟨lost, post, hqueue, hline, hdropped, _⟩
    · exact h.refused horder hline hdropped hrefused hhanded hopen hstamp hpassed hbase hq
    · exact h.accepted hf horder hqueue hline hdropped hhanded hopen hstamp hpassed hbase hq
  | finished f hf horder hcell hpc hopen hfin hstamp hlistener =>
    refine h.finished hf horder ?_ ?_ ?_ ?_ hopen hfin hstamp ?_ ?_ hq
    · simp [line, hcell, Cell.enqueue]
    · simp [dropped, hcell, Cell.enqueue]
    · rw [hcell]; rfl
    · rw [hcell]; rfl
    · rw [hcell, hlistener, hpc]; exact h.passed
    · rw [hsame s s' hlistener, hlistener]; exact h.baseline

/-- The invariant holds in every run. -/
theorem inv_of_reachable {s : Feed} (h : Reachable (step b capacity topic) init s) : Inv topic s := by
  refine Reaches.invariant (I := Inv topic) inv_init ?_ h
  intro s a s' _ hs _ hstep
  obtain ⟨hmove, hquiet⟩ := step_move hs.quiet hstep
  exact hs.move hmove hquiet

/-! ### Drops that stay visible -/

variable (capacity topic) in
/-- The condition on a step.  The policy evicts only once something was popped,
refuses only behind something queued or popped, and the topic does not complete
right after a refused update. -/
def Revealing (s : Feed) : FeedAction → Prop
  | .publish onFull _ =>
      (s.cell.offered capacity onFull topic = .replaced → s.cell.lane.queue ≠ [] →
        s.cell.history.popped ≠ []) ∧
      (s.cell.offered capacity onFull topic = .refused → s.line ≠ [])
  | .finish => ∀ f ∈ s.cell.history.handed.getLast?, f ∉ s.cell.history.refused
  | _ => True

instance (s : Feed) (a : FeedAction) : Decidable (Revealing capacity topic s a) :=
  match a with
  | .publish _ _ => inferInstanceAs (Decidable ((_ → _ → _) ∧ (_ → _)))
  | .finish => inferInstanceAs (Decidable (∀ f ∈ s.cell.history.handed.getLast?, f ∉ _))
  | .claim => isTrue trivial
  | .call _ => isTrue trivial
  | .drain _ => isTrue trivial

/-- The policy dropped an update of this stamp. -/
def Dropped (s : Feed) (d : ℕ) : Prop := ∃ x ∈ s.dropped, x.order = d

/-- A later-stamped frame of the topic reached the client. -/
def Passed (s : Feed) (d : ℕ) : Prop := ∃ f ∈ s.listener.arrived, d < f.order

/-- The client reported a gap whose range contains the stamp. -/
def Reported (s : Feed) (d : ℕ) : Prop := ∃ r ∈ s.listener.gaps, r.Covers d

/-- What holds in a run of revealing steps. -/
structure Shown (topic : Topic) (s : Feed) : Prop where
  /-- The first frame of the line is an update below every drop. -/
  headed : ∀ x ∈ s.dropped, ∃ a ∈ s.line.head?,
    IsUpdate topic a ∧ (a.order < x.order ∨ x.order = u64Max)
  /-- In a completed topic an update stands above every drop. -/
  tailed : s.lane.finishing = true → ∀ x ∈ s.dropped, x.order < u64Max →
    ∃ u ∈ s.line, IsUpdate topic u ∧ x.order < u.order

theorem shown_init : Shown topic init where
  headed := by intro x hx; cases hx
  tailed := by intro _ x hx; cases hx

theorem Shown.of_same {s s' : Feed} (h : Shown topic s) (hline : s'.line = s.line)
    (hdropped : s'.dropped = s.dropped) (hfin : s'.lane.finishing = s.lane.finishing) :
    Shown topic s' where
  headed := by rw [hline, hdropped]; exact h.headed
  tailed := by rw [hline, hdropped, hfin]; exact h.tailed

/-- An update behind the head of the line is above it. -/
theorem Inv.head_before {s : Feed} (h : Inv topic s) {a x : Frame} {rest : List Frame}
    (hline : s.line = a :: rest) (hx : x ∈ rest) :
    IsUpdate topic a ∧ (a.order < x.order ∨ x.order = u64Max) := by
  have hpair := h.ordered
  rw [hline, List.pairwise_cons] at hpair
  obtain ⟨hu, hlt⟩ := hpair.1 x hx
  exact ⟨hu, hlt.imp_right And.right⟩

/-- A refusal behind something leaves the head below the new drop. -/
theorem Shown.refused {s s' : Feed} (h : Shown topic s) (hi : Inv topic s) {f : Frame}
    (horder : f.order = saturatingSucc s.stamp) (hne : s.line ≠ []) (hline : s'.line = s.line)
    (hdropped : s'.dropped = s.dropped ++ [f]) (hopen : s.lane.finishing = false) :
    ∀ x ∈ s'.dropped, ∃ a ∈ s'.line.head?,
      IsUpdate topic a ∧ (a.order < x.order ∨ x.order = u64Max) := by
  intro x hx
  rw [hline]
  rw [hdropped, List.mem_append] at hx
  rcases hx with hx | hx
  · exact h.headed x hx
  · obtain ⟨a, rest, hcons⟩ := List.exists_cons_of_ne_nil hne
    have ha : a ∈ s.line := by rw [hcons]; simp
    refine ⟨a, by rw [hcons]; rfl, hi.updates hopen a ha, ?_⟩
    rw [List.mem_singleton.mp hx, horder]
    exact (fresh_stamp hi.counter (hi.bounded a (List.mem_append_left _ ha))).imp_right And.right

/-- An eviction behind a popped frame leaves the head below the new drop. -/
theorem Shown.accepted {s s' : Feed} (h : Shown topic s) (hi : Inv topic s) {f : Frame}
    {lost post : List Frame} (hqueue : s.cell.lane.queue = lost ++ post)
    (hline : s'.line = s.cell.history.popped ++ post ++ [f])
    (hdropped : ∀ x, x ∈ s'.dropped ↔ x ∈ s.dropped ∨ x ∈ lost)
    (hpopped : lost ≠ [] → s.cell.history.popped ≠ []) :
    ∀ x ∈ s'.dropped, ∃ a ∈ s'.line.head?,
      IsUpdate topic a ∧ (a.order < x.order ∨ x.order = u64Max) := by
  have hold : s.line = s.cell.history.popped ++ (lost ++ post) := by rw [line, hqueue]
  intro x hx
  rcases (hdropped x).mp hx with hx | hx
  · -- the head of the line stays where it is
    obtain ⟨a, ha, hbelow⟩ := h.headed x hx
    refine ⟨a, ?_, hbelow⟩
    rw [hold] at ha
    rw [hline]
    cases hp : s.cell.history.popped with
    | cons p ps =>
      rw [hp] at ha
      exact ha
    | nil =>
      have hnil : lost = [] := by
        by_contra hne
        exact hpopped hne hp
      rw [hp, hnil] at ha
      simp only [List.nil_append, Option.mem_def] at ha ⊢
      rw [List.head?_append, ha]
      rfl
  · -- the evicted frame stood behind a popped one
    obtain ⟨p, ps, hp⟩ := List.exists_cons_of_ne_nil (hpopped (List.ne_nil_of_mem hx))
    rw [hp, List.cons_append] at hold
    refine ⟨p, ?_, hi.head_before hold ?_⟩
    · rw [hline, hp]
      rfl
    · simp [hx]

/-- The end frame follows an update above every drop. -/
theorem Shown.finished {s s' : Feed} (h : Shown topic s) (hi : Inv topic s) {f : Frame}
    (hline : s'.line = s.line ++ [f]) (hdropped : s'.dropped = s.dropped)
    (hopen : s.lane.finishing = false)
    (hlast : ∀ f ∈ s.cell.history.handed.getLast?, f ∉ s.cell.history.refused) :
    Shown topic s' where
  headed := by
    intro x hx
    rw [hdropped] at hx
    obtain ⟨a, ha, hbelow⟩ := h.headed x hx
    refine ⟨a, ?_, hbelow⟩
    rw [hline, Option.mem_def, List.head?_append, Option.mem_def.mp ha]
    rfl
  tailed := by
    intro _ x hx hmax
    rw [hdropped] at hx
    obtain ⟨u, hu, hle, hor⟩ := hi.latest x hx
    have hmem : u ∈ s.line := hor.resolve_right (hlast u hu)
    refine ⟨u, ?_, hi.updates hopen u hmem, ?_⟩
    · rw [hline]
      exact List.mem_append_left _ hmem
    · -- the stamps differ, for the update is still in the line
      have hne : u.order ≠ x.order := by
        intro he
        have := hi.apart x hx u hmem he
        omega
      omega

/-- A revealing move keeps the drops visible. -/
theorem Shown.move {s s' : Feed} {a : FeedAction} (h : Shown topic s) (hi : Inv topic s)
    (hg : Revealing capacity topic s a) (hm : Move capacity topic s s' a) : Shown topic s' := by
  cases hm with
  | still hcell hfly hfin hstamp hlistener => exact h.of_same hcell.line hcell.dropped hfin
  | popped f q hqueue hqueue' hhist hfly hfly' hfin hstamp hlistener =>
    refine h.of_same ?_ ?_ hfin
    · simp [line, hhist, hqueue, hqueue']
    · simp [dropped, hhist]
  | arrived f hcell hfly hfly' hfin hstamp hlistener => exact h.of_same hcell.line hcell.dropped hfin
  | published f hf horder ho hcell hpc hopen hfin hstamp hlistener =>
    refine ⟨?_, by rw [hfin]; intro hcontra; cases hcontra⟩
    rcases line_offer ho hcell with
      ⟨hrefuse, hline, hdropped, _⟩ | ⟨lost, post, hqueue, hline, hdropped, hlost⟩
    · exact h.refused hi horder (hg.2 hrefuse) hline hdropped hopen
    · refine h.accepted hi hqueue hline hdropped ?_
      intro hne
      refine hg.1 (hlost hne) ?_
      rw [hqueue]
      exact List.append_ne_nil_of_left_ne_nil hne _
  | finished f hf horder hcell hpc hopen hfin hstamp hlistener =>
    refine h.finished hi (f := f) ?_ ?_ hopen hg
    · simp [line, hcell, Cell.enqueue]
    · simp [dropped, hcell, Cell.enqueue]

theorem shown_of_reaches {s : Feed}
    (h : Reaches (step b capacity topic) (Revealing capacity topic) init s) : Shown topic s := by
  refine Reaches.invariant (I := Shown topic) shown_init ?_ h
  intro s a s' hr hs hg hstep
  have hi := inv_of_reachable hr.reachable
  exact hs.move hi hg (step_move hi.quiet hstep).1

/-! ### Which drops are reported -/

/-- In every run exactly the drops between two delivered updates are reported. -/
theorem Inv.reported_iff {s : Feed} (h : Inv topic s) {d : ℕ} (hd : s.Dropped d) :
    s.Reported d ↔
      (∃ f ∈ s.listener.arrived, IsUpdate topic f ∧ f.order < d) ∧
        ∃ f ∈ s.listener.arrived, IsUpdate topic f ∧ d < f.order := by
  obtain ⟨x, hx, rfl⟩ := hd
  have hline := h.line_eq
  rw [Reported, h.baseline.covered x.order]
  constructor
  · rintro ⟨_, ⟨a, ha, hax⟩, c, hc, hxc⟩
    obtain ⟨f, hf, hfu, rfl⟩ := mem_delivered.mp ha
    obtain ⟨g, hg, hgu, rfl⟩ := mem_delivered.mp hc
    exact ⟨⟨f, hf, hfu, hax⟩, g, hg, hgu, hxc⟩
  · rintro ⟨⟨f, hf, hfu, hfx⟩, g, hg, hgu, hxg⟩
    refine ⟨?_, ⟨_, mem_delivered.mpr ⟨f, hf, hfu, rfl⟩, hfx⟩,
      _, mem_delivered.mpr ⟨g, hg, hgu, rfl⟩, hxg⟩
    -- the dropped stamp itself never arrives, for a later one did
    intro hmem
    obtain ⟨u, hu, _, he⟩ := mem_delivered.mp hmem
    have harrived : ∀ v ∈ s.listener.arrived, v ∈ s.line := by
      intro v hv
      rw [hline]
      exact List.mem_append_left _ hv
    have hmax := h.apart x hx u (harrived u hu) he
    have hle := h.bounded g (List.mem_append_left _ (harrived g hg))
    have hcounter := h.counter
    omega

/-- An end frame that arrived followed every other frame of the line. -/
theorem Inv.arrived_of_isEnd {s : Feed} (h : Inv topic s) {e u : Frame} (he : IsEnd topic e)
    (hmem : e ∈ s.listener.arrived) (hu : u ∈ s.line) : u ∈ s.listener.arrived := by
  have hpair := h.ordered
  rw [h.line_eq] at hu hpair
  rcases List.mem_append.mp hu with hu | hu
  · exact hu
  · -- nothing stands behind an end frame
    have hbefore := (List.pairwise_append.mp hpair).2.2 e hmem u hu
    exact absurd hbefore.1 (not_isUpdate_of_isEnd he)

/-- An end frame means the topic completed. -/
theorem Inv.finishing_of_isEnd {s : Feed} (h : Inv topic s) :
    ∀ f ∈ s.line, IsEnd topic f → s.lane.finishing = true := by
  intro f hf he
  by_contra hopen
  exact not_isUpdate_of_isEnd he (h.updates (by simpa using hopen) f hf)

/-- A visible drop that a later frame passed lies between two delivered updates. -/
theorem Shown.reported {s : Feed} (h : Shown topic s) (hi : Inv topic s) {d : ℕ}
    (hd : s.Dropped d) (hp : s.Passed d) : s.Reported d := by
  rw [hi.reported_iff hd]
  obtain ⟨x, hx, rfl⟩ := hd
  obtain ⟨f, hf, hxf⟩ := hp
  have hmem : f ∈ s.line := by rw [hi.line_eq]; exact List.mem_append_left _ hf
  have hmax : x.order < u64Max :=
    lt_of_lt_of_le hxf ((hi.bounded f (List.mem_append_left _ hmem)).trans hi.counter)
  constructor
  · -- the head of the line arrived first
    obtain ⟨a, ha, hau, hlt⟩ := h.headed x hx
    refine ⟨a, ?_, hau, hlt.resolve_right hmax.ne⟩
    obtain ⟨g, rest, hcons⟩ := List.exists_cons_of_ne_nil (List.ne_nil_of_mem hf)
    rw [hi.line_eq, hcons, List.cons_append, List.head?_cons, Option.mem_def,
      Option.some.injEq] at ha
    rw [hcons, ha]
    simp
  · rcases hi.kinds f hmem with hfu | hfe
    · exact ⟨f, hf, hfu, hxf⟩
    · obtain ⟨u, hu, huu, hxu⟩ := h.tailed (hi.finishing_of_isEnd f hmem hfe) x hx hmax
      exact ⟨u, hi.arrived_of_isEnd hfe hf hu, huu, hxu⟩

/-- **Drops and gap reports.**  In every run of revealing steps, each dropped update
that a later-stamped frame of the topic passed is inside a reported gap.  In every
run, a dropped update is inside a reported gap exactly when the client was handed
an update below it and one above it. -/
theorem dropped_reported_when_revealing (b : FrameBuilder) (capacity : ℕ) (topic : Topic) :
    (∀ s, Reaches (step b capacity topic) (Revealing capacity topic) init s →
      ∀ d, s.Dropped d → s.Passed d → s.Reported d) ∧
    ∀ s, Reachable (step b capacity topic) init s → ∀ d, s.Dropped d →
      (s.Reported d ↔
        (∃ f ∈ s.listener.arrived, IsUpdate topic f ∧ f.order < d) ∧
          ∃ f ∈ s.listener.arrived, IsUpdate topic f ∧ d < f.order) := by
  constructor
  · intro s hs d hd hp
    exact (shown_of_reaches hs).reported (inv_of_reachable hs.reachable) hd hp
  · intro s hs d hd
    exact (inv_of_reachable hs).reported_iff hd

/-- The second of three updates is evicted behind a delivered one. -/
theorem drop_between_deliveries_reported :
    ∃ s, Reaches (step FrameBuilder.total 1 Topic.prices) (Revealing 1 Topic.prices) init s ∧
      s.Dropped 2 ∧ s.Passed 2 ∧ s.Reported 2 := by
  have hrun : (runs (restrict (step FrameBuilder.total 1 Topic.prices) (Revealing 1 Topic.prices))
      init
      [.publish dropOldest [], .drain .accepted, .drain .accepted, .drain .accepted,
        .publish dropOldest [], .publish dropOldest [], .drain .accepted, .drain .accepted,
        .drain .accepted, .drain .accepted]).map
        (fun s => (s.dropped.map Frame.order, s.listener.arrived.map Frame.order)) =
      some ([2], [1, 3]) := by decide +kernel
  obtain ⟨s, hs, hobs⟩ := Option.map_eq_some_iff.mp hrun
  have hreach := Reaches.of_runs _ .start hs
  simp only [Prod.mk.injEq] at hobs
  have hdropped : s.Dropped 2 := by
    obtain ⟨x, hx, he⟩ := List.mem_map.mp (hobs.1 ▸ List.mem_singleton_self 2)
    exact ⟨x, hx, he⟩
  have hpassed : s.Passed 2 := by
    have hthree : 3 ∈ s.listener.arrived.map Frame.order := by rw [hobs.2]; simp
    obtain ⟨f, hf, he⟩ := List.mem_map.mp hthree
    exact ⟨f, hf, by omega⟩
  exact ⟨s, hreach, hdropped, hpassed,
    (dropped_reported_when_revealing FrameBuilder.total 1 Topic.prices).1 s hreach 2 hdropped hpassed⟩

/-- Two updates meet a queue of one before the first pop: the first is evicted, the
second arrives as the client's baseline, and no gap is reported. -/
theorem first_drop_unreported :
    ∃ s, Reachable (step FrameBuilder.total 1 Topic.prices) init s ∧
      s.Dropped 1 ∧ s.Passed 1 ∧ ¬ s.Reported 1 := by
  have hrun : (runs (step FrameBuilder.total 1 Topic.prices) init
      [.publish dropOldest [], .publish dropOldest [], .drain .accepted, .drain .accepted,
        .drain .accepted]).map
        (fun s => (s.dropped.map Frame.order, s.listener.arrived.map Frame.order,
          s.listener.gaps)) =
      some ([1], [2], []) := by decide +kernel
  obtain ⟨s, hs, hobs⟩ := Option.map_eq_some_iff.mp hrun
  simp only [Prod.mk.injEq] at hobs
  obtain ⟨hdropped, harrived, hgaps⟩ := hobs
  refine ⟨s, Reachable.of_runs hs, ?_, ?_, ?_⟩
  · obtain ⟨x, hx, he⟩ := List.mem_map.mp (hdropped ▸ List.mem_singleton_self 1)
    exact ⟨x, hx, he⟩
  · have htwo : 2 ∈ s.listener.arrived.map Frame.order := by rw [harrived]; simp
    obtain ⟨f, hf, he⟩ := List.mem_map.mp htwo
    exact ⟨f, hf, by omega⟩
  · rw [Reported, hgaps]
    simp

end Feed

end Client
end TightbeamExt
