import TightbeamExt.Base.Table
import TightbeamExt.Pubsub.Topic

/-!
# The in-process backplane

`Local` keeps one counter per topic and calls every attached sink with the next
stamp while it holds its lock.  `Tally` is what `Local::publish` remembers while
it goes through the sinks: whether one accepted, and the first refusal of each
kind.

* `saturatingSucc` — the next stamp.
* `Tally.record`, `Tally.commits`, `Tally.answer` — one sink's answer, whether the
  stamp burns, and what the publish returns.
-/

namespace TightbeamExt
namespace Pubsub

/-- `u64::MAX`. -/
def u64Max : ℕ := 2 ^ 64 - 1

/-- `saturating_add(1)` on a `u64`. -/
def saturatingSucc (n : ℕ) : ℕ := min (n + 1) u64Max

theorem saturatingSucc_of_lt {n : ℕ} (h : n < u64Max) : saturatingSucc n = n + 1 :=
  min_eq_left h

/-- Why a node refused one sequenced update. -/
inductive DeliverError
  /-- The node is quiescing. -/
  | draining
  /-- The update frame failed to build. -/
  | build (cause : TightBeamError)
  /-- The sink refused this update for an application reason. -/
  | rejected
  deriving DecidableEq, Repr

/-- `DeliverError::is_hard`: the refusal fails a publish another sink accepted. -/
def DeliverError.isHard : DeliverError → Bool
  | .draining => false
  | _ => true

/-- Why a publish never entered the backplane. -/
inductive BackplaneError
  /-- Every reachable node refused the update, or one refused it hard. -/
  | refused (cause : DeliverError)
  /-- The backplane transport rejected or lost the publish. -/
  | unavailable
  deriving DecidableEq, Repr

/-- Why a `TopicRegistry::publish` failed. -/
inductive PublishError
  /-- The registry is quiescing. -/
  | draining
  /-- A node could not encode the update frame. -/
  | build (cause : TightBeamError)
  /-- The backplane rejected or lost the publish. -/
  | backplane (cause : BackplaneError)
  deriving DecidableEq, Repr

/-- `From<BackplaneError> for PublishError`: single-node refusals keep their
shapes. -/
def PublishError.ofBackplane : BackplaneError → PublishError
  | .refused .draining => .draining
  | .refused (.build cause) => .build cause
  | other => .backplane other

/-- What `publish` knows of the sinks it went through. -/
structure Tally where
  /-- A sink accepted. -/
  deliveredAny : Bool
  /-- The first hard refusal. -/
  firstHard : Option DeliverError
  /-- The first soft refusal. -/
  firstSoft : Option DeliverError
  deriving DecidableEq, Repr

namespace Tally

/-- Before the first sink. -/
def empty : Tally := ⟨false, none, none⟩

/-- One sink answered. -/
def record (t : Tally) : Except DeliverError Unit → Tally
  | .ok () => { t with deliveredAny := true }
  | .error cause =>
      if cause.isHard then { t with firstHard := t.firstHard.or (some cause) }
      else { t with firstSoft := t.firstSoft.or (some cause) }

/-- Some sink refused. -/
def refused (t : Tally) : Bool := t.firstHard.isSome || t.firstSoft.isSome

/-- The stamp burns: a sink accepted, or there was none to ask. -/
def commits (t : Tally) : Bool := t.deliveredAny || !t.refused

/-- What the publish returns. -/
def answer (t : Tally) : Except BackplaneError Unit :=
  match t.deliveredAny, t.firstHard, t.firstSoft with
  | _, some cause, _ => .error (.refused cause)
  | false, none, some cause => .error (.refused cause)
  | _, none, _ => .ok ()

/-- Every answer counts: a sink accepts or refuses. -/
theorem heard_record (t : Tally) (answer : Except DeliverError Unit) :
    ((t.record answer).deliveredAny || (t.record answer).refused) = true := by
  cases answer with
  | ok u => simp [record]
  | error cause =>
    simp only [record]
    split
    · cases t.firstHard <;> simp [refused]
    · cases t.firstSoft <;> simp [refused]

theorem deliveredAny_record (t : Tally) (answer : Except DeliverError Unit) :
    (t.record answer).deliveredAny = (t.deliveredAny || answer.isOk) := by
  cases answer with
  | ok u => simp [record, Except.isOk, Except.toBool]
  | error cause =>
    simp only [record, Except.isOk, Except.toBool, Bool.or_false]
    split <;> rfl

end Tally
end Pubsub
end TightbeamExt
