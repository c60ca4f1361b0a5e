import Mathlib.Data.List.Induction
import TightbeamExt.Base.Promise
import TightbeamExt.Client.Channel

/-!
# The pull channel is an exact FIFO

`PullBridge` is the pull channel with its promises: each call of `put` and of `next`
makes one, numbered in the order of the calls, and a queued item or a parked taker
carries the number of the promise it will settle.  A call runs to its end before the
next one starts, so any list of calls is any number of overlapping promises.

What the channel is for is said by `Fifo`, which knows no queues: the items put before
the end, and how many calls of each kind there were.  The bridge simulates it.

## Main definitions

* `PullBridge`, `put`, `finish`, `next` — the channel and its promises.
* `PullBridge.channel` — the channel without the numbers.
* `PullCall`, `PullBridge.run` — any calls, one after the other.
* `Fifo`, `Fifo.result`, `Fifo.released` — what each promise should say.
* `Simulates` — how queues and promises follow from the FIFO.

## Main results

* `channel_put`, `channel_finish`, `channel_next` — the bridge runs `PullChannel`.
* `Simulates.call` — **one call keeps the simulation**.
* `exact_fifo` — the promises, and the queues, after any calls.
-/

namespace TightbeamExt
namespace Client

variable {I : Type*}

/-- What a resolved `next` holds. -/
inductive IteratorResult (I : Type*)
  /-- An item. -/
  | value (x : I)
  /-- The end of the stream. -/
  | done
  deriving DecidableEq

/-- The channel with its promises. -/
structure PullBridge (I : Type*) where
  /-- The queued items, each with the promise of its producer. -/
  items : List (I × ℕ)
  /-- The promises of the waiting `next` calls. -/
  takers : List ℕ
  /-- `finish` was called. -/
  done : Bool
  /-- The promises of the `put` calls. -/
  puts : Promises Unit
  /-- The promises of the `next` calls. -/
  nexts : Promises (IteratorResult I)
  /-- Which `put` went to which `next`. -/
  taken : List (ℕ × ℕ)
  deriving DecidableEq

namespace PullBridge

/-- A new channel, before any call. -/
def new : PullBridge I := ⟨[], [], false, [], [], []⟩

/-- Offer one item. -/
def put (x : I) (b : PullBridge I) : PullBridge I :=
  if b.done then { b with puts := b.puts.make (some ()) }
  else
    match b.takers with
    | taker :: rest =>
        { b with
          takers := rest
          nexts := b.nexts.settle taker (.value x)
          puts := b.puts.make (some ())
          taken := b.taken ++ [(b.puts.length, taker)] }
    | [] =>
        { b with
          items := b.items ++ [(x, b.puts.length)]
          puts := b.puts.make none }

/-- End the stream: parked producers are released, waiting calls are told the end, and
queued items stay. -/
def finish (b : PullBridge I) : PullBridge I :=
  { b with
    done := true
    puts := b.puts.settleAll (b.items.map Prod.snd) ()
    nexts := b.nexts.settleAll b.takers .done
    takers := [] }

/-- Take the next item. -/
def next (b : PullBridge I) : PullBridge I :=
  match b.items with
  | (x, producer) :: rest =>
      { b with
        items := rest
        puts := b.puts.settle producer ()
        nexts := b.nexts.make (some (.value x))
        taken := b.taken ++ [(producer, b.nexts.length)] }
  | [] =>
      if b.done then { b with nexts := b.nexts.make (some .done) }
      else { b with nexts := b.nexts.make none, takers := b.takers ++ [b.nexts.length] }

/-! ### Without the numbers -/

/-- The channel the bridge runs. -/
def channel (b : PullBridge I) : PullChannel I := ⟨b.items.map Prod.fst, b.takers.length, b.done⟩

theorem channel_new : (new : PullBridge I).channel = PullChannel.new := rfl

theorem channel_put (x : I) (b : PullBridge I) : (b.put x).channel = (b.channel.put x).1 := by
  unfold put channel PullChannel.put
  cases b.done with
  | true => rfl
  | false =>
    cases b.takers with
    | nil => simp
    | cons taker rest => simp

theorem channel_finish (b : PullBridge I) : b.finish.channel = b.channel.finish := rfl

theorem channel_next (b : PullBridge I) : b.next.channel = b.channel.next.1 := by
  unfold next channel PullChannel.next
  cases b.items with
  | cons p rest => rfl
  | nil =>
    cases b.done with
    | true => rfl
    | false => simp

end PullBridge

/-! ### Any calls -/

/-- One call on the channel. -/
inductive PullCall (I : Type*)
  /-- `put`. -/
  | put (x : I)
  /-- `next`. -/
  | next
  /-- `finish`. -/
  | finish
  deriving DecidableEq

namespace PullCall

/-- The item of a `put`. -/
def item? : PullCall I → Option I
  | .put x => some x
  | _ => none

/-- The call is a `next`. -/
def isNext : PullCall I → Bool
  | .next => true
  | _ => false

/-- The call is `finish`. -/
def isFinish : PullCall I → Bool
  | .finish => true
  | _ => false

end PullCall

/-- One call. -/
def PullBridge.call (b : PullBridge I) : PullCall I → PullBridge I
  | .put x => b.put x
  | .next => b.next
  | .finish => b.finish

/-- The calls, one after the other, on a new channel. -/
def PullBridge.run (calls : List (PullCall I)) : PullBridge I := calls.foldl PullBridge.call .new

/-! ### What the channel is for -/

/-- A FIFO as its calls leave it. -/
structure Fifo (I : Type*) where
  /-- The items put before the end. -/
  accepted : List I
  /-- The number of `put` calls. -/
  puts : ℕ
  /-- The number of `next` calls. -/
  nexts : ℕ
  /-- The end was called. -/
  finished : Bool

namespace Fifo

/-- No call yet. -/
def new : Fifo I := ⟨[], 0, 0, false⟩

/-- One more call. -/
def call (f : Fifo I) : PullCall I → Fifo I
  | .put x =>
      { f with
        accepted := if f.finished then f.accepted else f.accepted ++ [x]
        puts := f.puts + 1 }
  | .next => { f with nexts := f.nexts + 1 }
  | .finish => { f with finished := true }

/-- What the `i`-th `next` resolves with: the `i`-th item, else the end. -/
def result (f : Fifo I) (i : ℕ) : Option (IteratorResult I) :=
  match f.accepted[i]? with
  | some x => some (.value x)
  | none => if f.finished then some .done else none

/-- Whether the `j`-th `put` is resolved: its item is taken, or the end was called. -/
def released (f : Fifo I) (j : ℕ) : Option Unit :=
  if f.finished ∨ j < f.nexts then some () else none

theorem result_of_some {f : Fifo I} {i : ℕ} {x : I} (h : f.accepted[i]? = some x) :
    f.result i = some (.value x) := by
  simp [result, h]

theorem result_of_none {f : Fifo I} {i : ℕ} (h : f.accepted.length ≤ i) :
    f.result i = if f.finished then some .done else none := by
  simp [result, List.getElem?_eq_none h]

/-- The results depend on the items up to the asked one and on the end only. -/
theorem result_congr {f f' : Fifo I} {i : ℕ} (hitem : f'.accepted[i]? = f.accepted[i]?)
    (hfin : f'.finished = f.finished) : f'.result i = f.result i := by
  simp [result, hitem, hfin]

end Fifo

/-- How the bridge stands when the FIFO stands at `f`. -/
structure Simulates (b : PullBridge I) (f : Fifo I) : Prop where
  /-- Both know of the end. -/
  done : b.done = f.finished
  /-- Before the end every `put` is accepted. -/
  puts : if f.finished then f.accepted.length ≤ f.puts else f.puts = f.accepted.length
  /-- Queued are the items beyond the calls of `next`. -/
  items : b.items = f.accepted.zipIdx.drop f.nexts
  /-- Parked are the calls of `next` beyond the items, and none after the end. -/
  takers : b.takers = if f.finished then []
    else List.range' f.accepted.length (f.nexts - f.accepted.length)
  /-- The promises of the `next` calls. -/
  results : b.nexts.Tabulates f.nexts f.result
  /-- The promises of the `put` calls. -/
  releases : b.puts.Tabulates f.puts f.released
  /-- The `i`-th `put` went to the `i`-th `next`. -/
  taken : b.taken = (List.range (min f.accepted.length f.nexts)).map fun i => (i, i)

namespace Simulates

variable {b : PullBridge I} {f : Fifo I}

theorem new : Simulates (PullBridge.new : PullBridge I) Fifo.new where
  done := rfl
  puts := rfl
  items := rfl
  takers := rfl
  results := by simp [PullBridge.new, Fifo.new, Promises.Tabulates]
  releases := by simp [PullBridge.new, Fifo.new, Promises.Tabulates]
  taken := rfl

/-- A waiting `next` is the first beyond the items. -/
theorem of_takers_cons (h : Simulates b f) {taker : ℕ} {rest : List ℕ}
    (htakers : b.takers = taker :: rest) :
    f.finished = false ∧ taker = f.accepted.length ∧ f.accepted.length < f.nexts ∧
      rest = List.range' (f.accepted.length + 1) (f.nexts - (f.accepted.length + 1)) := by
  have heq := h.takers
  rw [htakers] at heq
  cases hfin : f.finished with
  | true => simp [hfin] at heq
  | false =>
    simp only [hfin, Bool.false_eq_true, if_false] at heq
    obtain ⟨k, hk⟩ : ∃ k, f.nexts - f.accepted.length = k + 1 := by
      cases hk : f.nexts - f.accepted.length with
      | zero => simp [hk] at heq
      | succ k => exact ⟨k, rfl⟩
    rw [hk, List.range'_succ, List.cons.injEq] at heq
    have hrest : f.nexts - (f.accepted.length + 1) = k := by omega
    exact ⟨rfl, heq.1, by omega, hrest ▸ heq.2⟩

/-- With no waiting `next` before the end, every `next` has its item. -/
theorem of_takers_nil (h : Simulates b f) (htakers : b.takers = []) (hfin : f.finished = false) :
    f.nexts ≤ f.accepted.length := by
  have heq := h.takers
  rw [htakers, hfin] at heq
  simp only [Bool.false_eq_true, if_false] at heq
  have := congrArg List.length heq
  rw [List.length_range', List.length_nil] at this
  omega

/-- The first queued item is the first no `next` was called for. -/
theorem of_items_cons (h : Simulates b f) {x : I} {producer : ℕ} {rest : List (I × ℕ)}
    (hitems : b.items = (x, producer) :: rest) :
    producer = f.nexts ∧ f.accepted[f.nexts]? = some x ∧
      rest = f.accepted.zipIdx.drop (f.nexts + 1) := by
  have heq := h.items
  rw [hitems] at heq
  have hhead : f.accepted.zipIdx[f.nexts]? = some (x, producer) := by
    rw [← List.head?_drop, ← heq, List.head?_cons]
  rw [List.getElem?_zipIdx, Option.map_eq_some_iff] at hhead
  obtain ⟨y, hy, hpair⟩ := hhead
  rw [Prod.mk.injEq] at hpair
  obtain ⟨rfl, hproducer⟩ := hpair
  have htail : rest = (f.accepted.zipIdx.drop f.nexts).tail := by rw [← heq, List.tail_cons]
  rw [List.tail_drop] at htail
  exact ⟨by omega, hy, htail⟩

/-- With nothing queued every item has its `next`. -/
theorem of_items_nil (h : Simulates b f) (hitems : b.items = []) :
    f.accepted.length ≤ f.nexts := by
  have heq := h.items
  rw [hitems] at heq
  have := congrArg List.length heq
  rw [List.length_drop, List.length_zipIdx, List.length_nil] at this
  omega

/-- A late item is dropped and its producer released. -/
theorem put_late (h : Simulates b f) (hfin : f.finished = true) (x : I) :
    Simulates (b.put x) (f.call (.put x)) := by
  have hdone : b.done = true := h.done.trans hfin
  have hle : f.accepted.length ≤ f.puts := by simpa [hfin] using h.puts
  have hput : b.put x = { b with puts := b.puts.make (some ()) } := by simp [PullBridge.put, hdone]
  have hcall : f.call (.put x) = { f with puts := f.puts + 1 } := by simp [Fifo.call, hfin]
  rw [hput, hcall]
  refine ⟨h.done, ?_, h.items, h.takers, h.results, ?_, h.taken⟩
  · simp only [hfin, if_true]
    omega
  · exact h.releases.make (by simp [Fifo.released, hfin]) fun _ _ => rfl

/-- An item for a waiting `next` goes to the first of them. -/
theorem put_handed (h : Simulates b f) {taker : ℕ} {rest : List ℕ}
    (htakers : b.takers = taker :: rest) (x : I) : Simulates (b.put x) (f.call (.put x)) := by
  obtain ⟨hfin, rfl, hlt, rfl⟩ := h.of_takers_cons htakers
  have hdone : b.done = false := h.done.trans hfin
  have hputs : f.puts = f.accepted.length := by simpa [hfin] using h.puts
  have hput : b.put x =
      { b with
        takers := List.range' (f.accepted.length + 1) (f.nexts - (f.accepted.length + 1))
        nexts := b.nexts.settle f.accepted.length (.value x)
        puts := b.puts.make (some ())
        taken := b.taken ++ [(b.puts.length, f.accepted.length)] } := by
    simp [PullBridge.put, hdone, htakers]
  have hcall : f.call (.put x) =
      { f with accepted := f.accepted ++ [x], puts := f.puts + 1 } := by
    simp [Fifo.call, hfin]
  rw [hput, hcall]
  constructor
  · exact h.done
  · simp [hfin, hputs]
  · -- with a `next` waiting nothing is queued, before or after
    dsimp only
    rw [h.items, List.drop_eq_nil_of_le, List.drop_eq_nil_of_le]
    · rw [List.length_zipIdx, List.length_append, List.length_singleton]
      omega
    · rw [List.length_zipIdx]
      omega
  · simp [hfin]
  · -- the first `next` that waits is the first without an item
    refine h.results.settle ?_ ?_
    · intro _
      rw [Fifo.result_of_none (Nat.le_refl _), hfin]
      simp [Fifo.result]
    · intro i _ hne
      refine Fifo.result_congr ?_ rfl
      rw [List.getElem?_append]
      split
      · rfl
      · next hge =>
        rw [List.getElem?_eq_none (by simp; omega), List.getElem?_eq_none (by omega)]
  · refine h.releases.make ?_ fun _ _ => rfl
    simp [Fifo.released, hputs, hlt]
  · dsimp only
    rw [h.taken, h.releases.length, hputs, List.length_append, List.length_singleton,
      Nat.min_eq_left (by omega), Nat.min_eq_left (by omega), List.range_succ, List.map_append]
    rfl

/-- An item nobody waits for is queued and its producer parked. -/
theorem put_parked (h : Simulates b f) (htakers : b.takers = []) (hfin : f.finished = false)
    (x : I) : Simulates (b.put x) (f.call (.put x)) := by
  have hle := h.of_takers_nil htakers hfin
  have hdone : b.done = false := h.done.trans hfin
  have hputs : f.puts = f.accepted.length := by simpa [hfin] using h.puts
  have hput : b.put x =
      { b with items := b.items ++ [(x, b.puts.length)], puts := b.puts.make none } := by
    simp [PullBridge.put, hdone, htakers]
  have hcall : f.call (.put x) =
      { f with accepted := f.accepted ++ [x], puts := f.puts + 1 } := by
    simp [Fifo.call, hfin]
  rw [hput, hcall]
  constructor
  · exact h.done
  · simp [hfin, hputs]
  · rw [h.items, h.releases.length, hputs, List.zipIdx_append, List.drop_append_of_le_length]
    · simp
    · rw [List.length_zipIdx]
      exact hle
  · have hzero : f.nexts - (f.accepted.length + 1) = 0 := by omega
    simp [hfin, htakers, hzero]
  · refine h.results.congr fun i hi => Fifo.result_congr ?_ rfl
    exact List.getElem?_append_left (by omega)
  · refine h.releases.make ?_ fun _ _ => rfl
    simp [Fifo.released, hfin, hputs, hle]
  · dsimp only
    rw [h.taken, List.length_append, Nat.min_eq_right hle, Nat.min_eq_right (by omega)]

/-- A queued item is taken and its producer released. -/
theorem next_queued (h : Simulates b f) {x : I} {producer : ℕ} {rest : List (I × ℕ)}
    (hitems : b.items = (x, producer) :: rest) : Simulates b.next (f.call .next) := by
  obtain ⟨rfl, hx, rfl⟩ := h.of_items_cons hitems
  have hlt : f.nexts < f.accepted.length := (List.getElem?_eq_some_iff.mp hx).1
  have hnext : b.next =
      { b with
        items := f.accepted.zipIdx.drop (f.nexts + 1)
        puts := b.puts.settle f.nexts ()
        nexts := b.nexts.make (some (.value x))
        taken := b.taken ++ [(f.nexts, b.nexts.length)] } := by
    simp [PullBridge.next, hitems]
  rw [hnext]
  constructor
  · exact h.done
  · exact h.puts
  · rfl
  · have hzero : f.nexts - f.accepted.length = 0 := by omega
    have hzero' : f.nexts + 1 - f.accepted.length = 0 := by omega
    simp [h.takers, Fifo.call, hzero, hzero']
  · exact h.results.make (Fifo.result_of_some hx) fun _ _ => rfl
  · refine h.releases.settle ?_ ?_
    · intro _
      simp only [Fifo.call, Fifo.released, Nat.lt_succ_self, or_true, if_true]
      split <;> rfl
    · intro j _ hne
      have hiff : j < f.nexts + 1 ↔ j < f.nexts := by omega
      simp [Fifo.call, Fifo.released, hiff]
  · rw [h.taken, h.results.length, Nat.min_eq_right (Nat.le_of_lt hlt)]
    simp only [Fifo.call]
    rw [Nat.min_eq_right hlt, List.range_succ, List.map_append]
    rfl

/-- After the end, with nothing queued, `next` is told so. -/
theorem next_done (h : Simulates b f) (hitems : b.items = []) (hfin : f.finished = true) :
    Simulates b.next (f.call .next) := by
  have hle := h.of_items_nil hitems
  have hdone : b.done = true := h.done.trans hfin
  have hnext : b.next = { b with nexts := b.nexts.make (some .done) } := by
    simp [PullBridge.next, hitems, hdone]
  rw [hnext]
  constructor
  · exact h.done
  · exact h.puts
  · rw [h.items]
    simp only [Fifo.call]
    rw [List.drop_eq_nil_of_le, List.drop_eq_nil_of_le] <;> rw [List.length_zipIdx] <;> omega
  · simp [h.takers, Fifo.call, hfin]
  · refine h.results.make ?_ fun _ _ => rfl
    exact (Fifo.result_of_none hle).trans (by simp [hfin])
  · exact h.releases.congr fun _ _ => by simp [Fifo.call, Fifo.released, hfin]
  · rw [h.taken]
    simp only [Fifo.call]
    rw [Nat.min_eq_left hle, Nat.min_eq_left (by omega)]

/-- Before the end, with nothing queued, `next` waits. -/
theorem next_parked (h : Simulates b f) (hitems : b.items = []) (hfin : f.finished = false) :
    Simulates b.next (f.call .next) := by
  have hle := h.of_items_nil hitems
  have hdone : b.done = false := h.done.trans hfin
  have hputs : f.puts = f.accepted.length := by simpa [hfin] using h.puts
  have hnext : b.next =
      { b with nexts := b.nexts.make none, takers := b.takers ++ [b.nexts.length] } := by
    simp [PullBridge.next, hitems, hdone]
  rw [hnext]
  constructor
  · exact h.done
  · exact h.puts
  · rw [h.items]
    simp only [Fifo.call]
    rw [List.drop_eq_nil_of_le, List.drop_eq_nil_of_le] <;> rw [List.length_zipIdx] <;> omega
  · have hsucc : f.nexts + 1 - f.accepted.length = f.nexts - f.accepted.length + 1 := by omega
    have hlast : f.accepted.length + (f.nexts - f.accepted.length) = f.nexts := by omega
    simp only [Fifo.call, hfin, Bool.false_eq_true, if_false]
    rw [h.takers, hfin, h.results.length, hsucc, List.range'_concat]
    simp [hlast]
  · refine h.results.make ?_ fun _ _ => rfl
    exact (Fifo.result_of_none hle).trans (by simp [hfin])
  · refine h.releases.congr fun j hj => ?_
    have hnow : j < f.nexts := by omega
    have hthen : j < f.nexts + 1 := by omega
    simp [Fifo.call, Fifo.released, hnow, hthen]
  · rw [h.taken]
    simp only [Fifo.call]
    rw [Nat.min_eq_left hle, Nat.min_eq_left (by omega)]

/-- Parked are the producers of the items nobody took. -/
theorem map_snd_items (h : Simulates b f) :
    b.items.map Prod.snd = List.range' f.nexts (f.accepted.length - f.nexts) := by
  rw [h.items, List.map_drop, List.zipIdx_map_snd, List.drop_range']
  simp

/-- The end releases every producer and every waiting `next`. -/
theorem finish (h : Simulates b f) : Simulates b.finish (f.call .finish) := by
  constructor
  · rfl
  · have hputs := h.puts
    simp only [Fifo.call, if_true]
    split at hputs <;> omega
  · exact h.items
  · rfl
  · refine h.results.settleAll ?_ ?_
    · -- who waits has no item, so it is told the end
      intro i _ hmem
      rw [h.takers] at hmem
      cases hfin : f.finished with
      | true => simp [hfin] at hmem
      | false =>
        simp only [hfin, Bool.false_eq_true, if_false, List.mem_range'_1] at hmem
        have hend : (f.call .finish).result i = some .done := Fifo.result_of_none hmem.1
        rw [hend, Fifo.result_of_none hmem.1, hfin]
        rfl
    · -- and who does not wait keeps what it has
      intro i hi hmem
      rw [h.takers] at hmem
      cases hfin : f.finished with
      | true => exact Fifo.result_congr rfl hfin.symm
      | false =>
        simp only [hfin, Bool.false_eq_true, if_false, List.mem_range'_1] at hmem
        have hlt : i < f.accepted.length := by omega
        have hx := List.getElem?_eq_getElem hlt
        have hend : (f.call .finish).result i = some (.value f.accepted[i]) :=
          Fifo.result_of_some hx
        rw [hend, Fifo.result_of_some hx]
  · refine h.releases.settleAll ?_ ?_
    · intro j _ _
      cases hr : f.released j with
      | none => simp [Fifo.call, Fifo.released]
      | some u => simp [Fifo.call, Fifo.released]
    · -- who is not parked was released before
      intro j hj hmem
      have hputs := h.puts
      rw [h.map_snd_items, List.mem_range'_1] at hmem
      cases hfin : f.finished with
      | true => simp [Fifo.call, Fifo.released, hfin]
      | false =>
        simp only [hfin, Bool.false_eq_true, if_false] at hputs
        have hlt : j < f.nexts := by omega
        simp [Fifo.call, Fifo.released, hlt]
  · exact h.taken

/-- **One call keeps the simulation.** -/
theorem call (h : Simulates b f) (c : PullCall I) : Simulates (b.call c) (f.call c) := by
  cases c with
  | put x =>
    cases hfin : f.finished with
    | true => exact h.put_late hfin x
    | false =>
      cases htakers : b.takers with
      | cons taker rest => exact h.put_handed htakers x
      | nil => exact h.put_parked htakers hfin x
  | next =>
    cases hitems : b.items with
    | cons p rest => exact h.next_queued hitems
    | nil =>
      cases hfin : f.finished with
      | true => exact h.next_done hitems hfin
      | false => exact h.next_parked hitems hfin
  | finish => exact h.finish

end Simulates

/-! ### The FIFO of a list of calls -/

section Calls

/-- The items put before the first `finish`. -/
def putBeforeFinish (calls : List (PullCall I)) : List I :=
  (calls.takeWhile fun c => !c.isFinish).filterMap PullCall.item?

/-- How many `put` calls there are. -/
def putCalls (calls : List (PullCall I)) : ℕ := calls.countP fun c => c.item?.isSome

/-- How many `next` calls there are. -/
def nextCalls (calls : List (PullCall I)) : ℕ := calls.countP PullCall.isNext

/-- `finish` is among the calls. -/
def finishCalled (calls : List (PullCall I)) : Bool := calls.any PullCall.isFinish

/-- The FIFO the calls describe. -/
def fifoOf (calls : List (PullCall I)) : Fifo I :=
  ⟨putBeforeFinish calls, putCalls calls, nextCalls calls, finishCalled calls⟩

/-- Past a `finish` nothing counts as put before it. -/
theorem putBeforeFinish_append (calls : List (PullCall I)) (c : PullCall I) :
    putBeforeFinish (calls ++ [c]) =
      if finishCalled calls then putBeforeFinish calls
      else putBeforeFinish calls ++ c.item?.toList := by
  induction calls with
  | nil => cases c <;> rfl
  | cons a calls ih =>
    cases a with
    | finish => rfl
    | put x =>
      have hpush : ∀ l : List (PullCall I),
          putBeforeFinish (.put x :: l) = x :: putBeforeFinish l := fun _ => rfl
      have hfin : finishCalled (.put x :: calls) = finishCalled calls := rfl
      rw [List.cons_append, hpush, hpush, ih, hfin]
      split <;> rfl
    | next => exact ih

theorem fifoOf_append (calls : List (PullCall I)) (c : PullCall I) :
    fifoOf (calls ++ [c]) = (fifoOf calls).call c := by
  have hitems := putBeforeFinish_append calls c
  cases c <;> cases hfin : finishCalled calls <;>
    simp_all [fifoOf, Fifo.call, putCalls, nextCalls, finishCalled, PullCall.item?,
      PullCall.isNext, PullCall.isFinish]

/-- **Any calls.**  The bridge simulates the FIFO its calls describe. -/
theorem simulates_run (calls : List (PullCall I)) :
    Simulates (PullBridge.run calls) (fifoOf calls) := by
  induction calls using List.reverseRecOn with
  | nil => exact Simulates.new
  | append_singleton calls c ih =>
    have hrun : PullBridge.run (calls ++ [c]) = (PullBridge.run calls).call c := by
      simp [PullBridge.run]
    rw [hrun, fifoOf_append]
    exact ih.call c

/-- Items and takers never wait for each other. -/
theorem Simulates.items_or_takers_nil {b : PullBridge I} {f : Fifo I} (h : Simulates b f) :
    b.items = [] ∨ b.takers = [] := by
  cases htakers : b.takers with
  | nil => exact Or.inr rfl
  | cons taker rest =>
    obtain ⟨-, -, hlt, -⟩ := h.of_takers_cons htakers
    refine Or.inl ?_
    rw [h.items, List.drop_eq_nil_of_le]
    rw [List.length_zipIdx]
    omega

/-- A `put` went to the `next` of its own number, as far as both were called. -/
theorem Simulates.mem_taken {b : PullBridge I} {f : Fifo I} (h : Simulates b f) (j i : ℕ) :
    (j, i) ∈ b.taken ↔ j = i ∧ j < f.accepted.length ∧ j < f.nexts := by
  rw [h.taken, List.mem_map]
  simp only [List.mem_range, Prod.mk.injEq]
  constructor
  · rintro ⟨k, hk, rfl, rfl⟩
    exact ⟨rfl, by omega, by omega⟩
  · rintro ⟨rfl, hacc, hnext⟩
    exact ⟨j, by omega, rfl, rfl⟩

/-- **The pull channel is an exact FIFO with back-pressure.**  After any calls: the
`i`-th `next` holds the `i`-th item put before the end, and without one it is told the
end or waits; that item's own `put` is the only one that went to it; items and takers
are never both queued, and nobody waits after the end; and a `put` is resolved exactly
when its item was taken or the end was called. -/
theorem exact_fifo (calls : List (PullCall I)) :
    (PullBridge.run calls).nexts.length = nextCalls calls ∧
    (PullBridge.run calls).puts.length = putCalls calls ∧
    (∀ i < nextCalls calls,
      (∀ x, (putBeforeFinish calls)[i]? = some x →
        (PullBridge.run calls).nexts[i]? = some (some (.value x))) ∧
      ((putBeforeFinish calls)[i]? = none → finishCalled calls = true →
        (PullBridge.run calls).nexts[i]? = some (some .done)) ∧
      ((putBeforeFinish calls)[i]? = none → finishCalled calls = false →
        (PullBridge.run calls).nexts[i]? = some none)) ∧
    (∀ j i, (j, i) ∈ (PullBridge.run calls).taken ↔
      j = i ∧ j < (putBeforeFinish calls).length ∧ i < nextCalls calls) ∧
    ((PullBridge.run calls).items = [] ∨ (PullBridge.run calls).takers = []) ∧
    (finishCalled calls = true → (PullBridge.run calls).takers = []) ∧
    ∀ j < putCalls calls, (PullBridge.run calls).puts[j]? = some (some ()) ↔
      (∃ i, (j, i) ∈ (PullBridge.run calls).taken) ∨ finishCalled calls = true := by
  have h := simulates_run calls
  refine ⟨h.results.length, h.releases.length, ?_, ?_, h.items_or_takers_nil, ?_, ?_⟩
  · intro i hi
    have hresult : (PullBridge.run calls).nexts[i]? = some ((fifoOf calls).result i) :=
      (h.results i).trans (if_pos hi)
    rw [hresult]
    refine ⟨?_, ?_, ?_⟩
    · intro x hx
      rw [Fifo.result_of_some hx]
    · intro hnone hfin
      have hend := Fifo.result_of_none (f := fifoOf calls) (List.getElem?_eq_none_iff.mp hnone)
      rw [hend]
      exact congrArg some (if_pos hfin)
    · intro hnone hfin
      have hend := Fifo.result_of_none (f := fifoOf calls) (List.getElem?_eq_none_iff.mp hnone)
      rw [hend]
      exact congrArg some (if_neg (by simp [fifoOf, hfin]))
  · intro j i
    rw [h.mem_taken]
    constructor
    · rintro ⟨rfl, hacc, hnext⟩
      exact ⟨rfl, hacc, hnext⟩
    · rintro ⟨rfl, hacc, hnext⟩
      exact ⟨rfl, hacc, hnext⟩
  · intro hfin
    rw [h.takers]
    exact if_pos hfin
  · intro j hj
    have hrelease : (PullBridge.run calls).puts[j]? = some ((fifoOf calls).released j) :=
      (h.releases j).trans (if_pos hj)
    have hputs := h.puts
    rw [hrelease]
    simp only [h.mem_taken, Option.some.injEq, Fifo.released]
    cases hfin : finishCalled calls with
    | true => simp [fifoOf, hfin]
    | false =>
      -- before the end every `put` is accepted, so it is taken once `next` was called for it
      have hacc : j < (fifoOf calls).accepted.length := by
        simp only [fifoOf, hfin, Bool.false_eq_true, if_false] at hputs
        exact hputs ▸ hj
      have hopen : (fifoOf calls).finished = false := hfin
      simp only [hopen, Bool.false_eq_true, false_or, or_false]
      constructor
      · intro hsome
        split at hsome
        · next hlt => exact ⟨j, rfl, hacc, hlt⟩
        · cases hsome
      · rintro ⟨_, _, _, hlt⟩
        exact if_pos hlt

-- a waiting `next`, a queued item drained after the end, and a late one dropped
example :
    (PullBridge.run [.next, .put 5, .put 6, .finish, .put 7, .next, .next]).nexts =
      [some (.value 5), some (.value 6), some .done] := by
  decide

end Calls

end Client
end TightbeamExt
