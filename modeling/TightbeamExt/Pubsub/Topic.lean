import Mathlib.Algebra.Ring.Nat
import Mathlib.Data.List.Basic
import Mathlib.Data.List.Infix

/-!
# Topics and frames

A topic name is a non-empty text that starts with none of the four wire command
prefixes; the type carries both facts.  A Rust `str` is a sequence of Unicode
scalar values, so names are lists of `Char`, and a frame id is the UTF-8 image
of such a text.

The frame builder of the transport library is not part of this repository.  It
may refuse an id, an order or a payload (`FrameBuilder.failure`); on success the
frame carries exactly what it was given.

* `Topic`, `Topic.fromStr`, `Topic.tryFrom` — validated names and their parsers.
* `Frame`, `updateFrame`, `endFrame` — what a node puts on the wire.
-/

namespace TightbeamExt
namespace Pubsub

/-! ### Names -/

/-- Wire prefix a client subscribes with. -/
def subPrefix : List Char := ['s', 'u', 'b', '/']

/-- Wire prefix a client unsubscribes with. -/
def unsubPrefix : List Char := ['u', 'n', 's', 'u', 'b', '/']

/-- Wire prefix a client publishes with. -/
def pubPrefix : List Char := ['p', 'u', 'b', '/']

/-- Wire prefix the registry completes a topic with. -/
def endPrefix : List Char := ['e', 'n', 'd', '/']

/-- Every reserved command prefix, in dispatch order. -/
def reservedPrefixes : List (List Char) := [subPrefix, unsubPrefix, pubPrefix, endPrefix]

/-- A validated topic name. -/
structure Topic where
  /-- The name. -/
  name : List Char
  /-- A topic name is non-empty. -/
  nonempty : name ≠ []
  /-- A topic is never mistaken for a command. -/
  unreserved : ∀ p ∈ reservedPrefixes, ¬ p <+: name
  deriving DecidableEq

/-- Why a topic name failed validation. -/
inductive TopicError
  /-- The name is empty. -/
  | empty
  /-- The name starts with a reserved wire command prefix. -/
  | reservedPrefix (p : List Char)
  /-- The name octets are not valid UTF-8. -/
  | notUtf8
  deriving DecidableEq, Repr

/-- `FromStr for Topic`: the first reserved prefix the name starts with is the
one the error names. -/
def Topic.fromStr (name : List Char) : Except TopicError Topic :=
  if he : name = [] then .error .empty
  else
    match hf : reservedPrefixes.find? fun p => decide (p <+: name) with
    | some p => .error (.reservedPrefix p)
    | none =>
        .ok ⟨name, he, fun p hp => by simpa using List.find?_eq_none.mp hf p hp⟩

/-- What the parser accepts, it accepts as it stands. -/
theorem Topic.name_of_fromStr {name : List Char} {t : Topic}
    (h : Topic.fromStr name = .ok t) : t.name = name := by
  unfold Topic.fromStr at h
  split at h
  · cases h
  · split at h
    · cases h
    · cases h; rfl

/-- A topic's name parses back to the topic. -/
theorem Topic.fromStr_name (t : Topic) : Topic.fromStr t.name = .ok t := by
  have hnone : (reservedPrefixes.find? fun p => decide (p <+: t.name)) = none := by
    rw [List.find?_eq_none]
    intro p hp
    simpa using t.unreserved p hp
  unfold Topic.fromStr
  rw [dif_neg t.nonempty]
  split
  · next p hp => rw [hnone] at hp; cases hp
  · rfl

/-- The topic most of the source's own tests run on. -/
def Topic.prices : Topic := ⟨['p', 'r', 'i', 'c', 'e', 's'], by decide, by decide⟩

/-! ### Frames -/

/-- Raw octets. -/
abbrev Octets := List UInt8

/-- The UTF-8 image of a text. -/
def utf8 (text : List Char) : Octets := text.flatMap String.utf8EncodeChar

theorem utf8_append (a b : List Char) : utf8 (a ++ b) = utf8 a ++ utf8 b := by
  simp [utf8]

/-- `str::from_utf8`. -/
def fromUtf8 (octets : Octets) : Option (List Char) :=
  octets.toByteArray.utf8Decode?.map Array.toList

theorem fromUtf8_utf8 (text : List Char) : fromUtf8 (utf8 text) = some text := by
  have hdecode : (utf8 text).toByteArray.utf8Decode? = some text.toArray :=
    List.utf8Decode?_utf8Encode
  rw [fromUtf8, hdecode]
  rfl

/-- `TryFrom<&[u8]> for Topic`. -/
def Topic.tryFrom (octets : Octets) : Except TopicError Topic :=
  match fromUtf8 octets with
  | none => .error .notUtf8
  | some text => Topic.fromStr text

/-- The octets of a topic's name parse back to the topic. -/
theorem Topic.tryFrom_utf8 (t : Topic) : Topic.tryFrom (utf8 t.name) = .ok t := by
  rw [Topic.tryFrom, fromUtf8_utf8]
  exact Topic.fromStr_name t

/-- A frame as the registry and the client read it: the metadata id and order,
and the opaque body. -/
structure Frame where
  /-- `metadata.id`. -/
  id : Octets
  /-- `metadata.order`, the dense per-topic stamp. -/
  order : ℕ
  /-- The application octets of the opaque body. -/
  payload : Octets
  deriving DecidableEq, Repr

/-- A failure of the transport library. -/
structure TightBeamError where
  /-- The library's own error variant. -/
  code : ℕ
  deriving DecidableEq, Repr

/-- The frame builder of the transport library: which builds it refuses. -/
structure FrameBuilder where
  /-- The error a build of this id, order and payload ends with, if any. -/
  failure : Octets → ℕ → Octets → Option TightBeamError

/-- A builder that refuses nothing. -/
def FrameBuilder.total : FrameBuilder := ⟨fun _ _ _ => none⟩

/-- `frame::build`. -/
def build (b : FrameBuilder) (id : List Char) (order : ℕ) (payload : Octets) :
    Except TightBeamError Frame :=
  match b.failure (utf8 id) order payload with
  | some cause => .error cause
  | none => .ok ⟨utf8 id, order, payload⟩

/-- `frame::update_frame`: the id is the topic. -/
def updateFrame (b : FrameBuilder) (topic : Topic) (order : ℕ) (payload : Octets) :
    Except TightBeamError Frame :=
  build b topic.name order payload

/-- `frame::end_frame`: the id is the topic behind the `end/` prefix, the body is
empty. -/
def endFrame (b : FrameBuilder) (topic : Topic) (order : ℕ) : Except TightBeamError Frame :=
  build b (endPrefix ++ topic.name) order []

/-- A built frame carries what the builder was given. -/
theorem build_eq_ok {b : FrameBuilder} {id : List Char} {order : ℕ} {payload : Octets}
    {f : Frame} (h : build b id order payload = .ok f) : f = ⟨utf8 id, order, payload⟩ := by
  unfold build at h
  split at h
  · cases h
  · cases h; rfl

theorem order_of_updateFrame {b : FrameBuilder} {topic : Topic} {order : ℕ} {payload : Octets}
    {f : Frame} (h : updateFrame b topic order payload = .ok f) : f.order = order := by
  rw [build_eq_ok h]

theorem order_of_endFrame {b : FrameBuilder} {topic : Topic} {order : ℕ} {f : Frame}
    (h : endFrame b topic order = .ok f) : f.order = order := by
  rw [build_eq_ok h]

theorem id_of_endFrame {b : FrameBuilder} {topic : Topic} {order : ℕ} {f : Frame}
    (h : endFrame b topic order = .ok f) : f.id = utf8 (endPrefix ++ topic.name) := by
  rw [build_eq_ok h]

end Pubsub
end TightbeamExt
