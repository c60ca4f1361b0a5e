import TightbeamExt.Base.Text
import TightbeamExt.Pubsub.Topic

/-!
# Topic names as the client has them

The client keys its subscriptions by JavaScript strings: sequences of UTF-16 units that
`assertTopic` has accepted.  Such a string need not be a text.  A command carries it as UTF-8,
where every lone surrogate reads U+FFFD, so the server may read one topic for two names; for
well-formed names it never does.

## Main definitions

* `assertTopic` — the client's check.
* `TopicName` — a name that passed it.
* `commandId` — the id of a command.
* `TopicName.topic` — the topic the server reads.

## Main results

* `commandId_topic` — a command carries the text of its topic.
* `TopicName.eq_of_topic` — well-formed names of one topic are one name.
-/

namespace TightbeamExt
namespace Client

open Pubsub Text

/-- A JavaScript string. -/
abbrev JsString := List UInt16

/-! ### The client's check -/

/-- The `TypeError` of a refused name. -/
inductive TopicTypeError
  /-- A topic name must be non-empty. -/
  | empty
  /-- A topic name must not start with the reserved prefix. -/
  | reservedPrefix (p : List Char)
  deriving DecidableEq, Repr

/-- `assertTopic`. -/
def assertTopic (t : JsString) : Except TopicTypeError Unit :=
  if t.length = 0 then .error .empty
  else
    match reservedPrefixes.find? fun p => decide (utf16 p <+: t) with
    | some p => .error (.reservedPrefix p)
    | none => .ok ()

theorem assertTopic_eq_ok {t : JsString} (h : assertTopic t = .ok ()) :
    t ≠ [] ∧ ∀ p ∈ reservedPrefixes, ¬ utf16 p <+: t := by
  unfold assertTopic at h
  split at h
  · cases h
  · next hne =>
    refine ⟨fun h0 => hne (by rw [h0]; rfl), ?_⟩
    split at h
    · cases h
    · next hf =>
      intro p hp
      simpa using List.find?_eq_none.mp hf p hp

theorem low_reserved : ∀ p ∈ reservedPrefixes, Low p := by decide

/-- An accepted name has a text. -/
theorem scalars_ne_nil {t : JsString} (h : assertTopic t = .ok ()) : scalars t ≠ [] := by
  rw [Ne, scalars_eq_nil_iff]
  exact (assertTopic_eq_ok h).1

/-- The text of an accepted name starts with no reserved prefix. -/
theorem scalars_unreserved {t : JsString} (h : assertTopic t = .ok ()) :
    ∀ p ∈ reservedPrefixes, ¬ p <+: scalars t := by
  intro p hp
  rw [prefix_scalars_iff (low_reserved p hp)]
  exact (assertTopic_eq_ok h).2 p hp

/-! ### Accepted names -/

/-- A name `assertTopic` has accepted. -/
structure TopicName where
  /-- The string. -/
  text : JsString
  /-- It was accepted. -/
  accepted : assertTopic text = .ok ()
  deriving DecidableEq

namespace TopicName

/-- The topic the server reads: lone surrogates are replaced on the way. -/
def topic (t : TopicName) : Topic :=
  ⟨scalars t.text, scalars_ne_nil t.accepted, scalars_unreserved t.accepted⟩

/-- The name most of the source's own tests run on. -/
def prices : TopicName := ⟨[0x70, 0x72, 0x69, 0x63, 0x65, 0x73], by decide⟩

/-- Well-formed names of one topic are one name. -/
theorem eq_of_topic {t t' : TopicName} (h : wellFormed t.text = true)
    (h' : wellFormed t'.text = true) (htopic : t.topic = t'.topic) : t = t' := by
  have hscalars : scalars t.text = scalars t'.text := congrArg Topic.name htopic
  have htext : t.text = t'.text := by
    rw [← (utf16_scalars_iff t.text).mpr h, hscalars, (utf16_scalars_iff t'.text).mpr h']
  cases t
  cases t'
  cases htext
  rfl

end TopicName

/-! ### Commands -/

/-- The id of a command: `${prefix}${topic}` as UTF-8. -/
def commandId (p : List Char) (t : JsString) : Octets := TextEncoder.encode (utf16 p ++ t)

theorem encode_eq_utf8 (t : JsString) : TextEncoder.encode t = utf8 (scalars t) := rfl

theorem commandId_eq {p : List Char} (hp : Low p) (t : JsString) :
    commandId p t = utf8 p ++ utf8 (scalars t) := by
  rw [commandId, encode_eq_utf8, scalars_utf16_append hp, utf8_append]

/-- A command carries the text of its topic. -/
theorem commandId_topic {p : List Char} (hp : Low p) (t : TopicName) :
    commandId p t.text = utf8 (p ++ t.topic.name) := by
  rw [commandId_eq hp, utf8_append]
  rfl

end Client
end TightbeamExt
