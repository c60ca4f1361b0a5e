import TightbeamExt.Pubsub.Dispatch
import TightbeamExt.Client.Name

/-!
# A topic name on its way

The client takes a topic name as a JavaScript string, checks it with `assertTopic` and sends
it behind `sub/` as UTF-8.  The server parses the octets as a `Topic`, and the ids of the
frames it builds for the topic come back to `dispatch`, which decodes them and looks the
string up.

The two ends agree on texts.  A JavaScript string need not be one: the encoder replaces
lone surrogates, so strings that differ only there are one topic, and the decoder skips a
byte order mark in front, so the updates of a topic that starts with one are looked up
under another name, or taken for the end of a topic.

## Main definitions

* `Route`, `route` — where `dispatch` takes a frame.
* `Exact`, `Apart` — a name that comes back to its entry, and two that never meet.
* `Plain` — the names that are texts without a byte order mark in front.

## Main results

* `topic_routing_exact_iff` — **names come back to their entries exactly when they are
  plain**.
* `marked_name_routes_elsewhere` — a name with a byte order mark, and two names that are one
  topic.
-/

namespace TightbeamExt
namespace Client

open Pubsub Text

/-- Where `dispatch` takes a frame. -/
inductive Route
  /-- To the completion of the entry under a key. -/
  | completes (key : JsString)
  /-- To the delivery of the entry under a key. -/
  | updates (key : JsString)
  deriving DecidableEq, Repr

/-- `dispatch` up to the lookup of the entry. -/
def route (id : Octets) : Route :=
  if utf16 endPrefix <+: TextDecoder.decode id then
    .completes ((TextDecoder.decode id).drop (utf16 endPrefix).length)
  else .updates (TextDecoder.decode id)

/-! ### The server's names -/

/-- The topic the server reads from the client's `sub/` command. -/
def serverTopic (t : JsString) : Option (Except TopicError Topic) :=
  (PubsubCommands.stripFront (utf8 subPrefix) (commandId subPrefix t)).map Topic.tryFrom

/-- The id is taken for a client's command. -/
def isCommand (id : Octets) : Bool :=
  [subPrefix, unsubPrefix, pubPrefix].any fun p => (PubsubCommands.stripFront (utf8 p) id).isSome

/-- The server accepts the name, and its frames come back to the entry under it. -/
def Exact (t : JsString) : Prop :=
  ∃ topic, serverTopic t = some (.ok topic) ∧
    (∀ b order payload f, updateFrame b topic order payload = .ok f →
      route f.id = .updates t ∧ isCommand f.id = false) ∧
    ∀ b order f, endFrame b topic order = .ok f →
      route f.id = .completes t ∧ isCommand f.id = false

/-- The names share neither a topic nor a route. -/
def Apart (t t' : JsString) : Prop :=
  ∀ topic topic', serverTopic t = some (.ok topic) → serverTopic t' = some (.ok topic') →
    topic ≠ topic' ∧ route (utf8 topic.name) ≠ route (utf8 topic'.name) ∧
      route (utf8 (endPrefix ++ topic.name)) ≠ route (utf8 (endPrefix ++ topic'.name))

/-- A text without a byte order mark in front. -/
def Plain (t : JsString) : Prop := wellFormed t = true ∧ t.head? ≠ some 0xFEFF

instance (t : JsString) : Decidable (Plain t) := inferInstanceAs (Decidable (_ ∧ _))

/-! ### From the client to the server -/

/-- The server accepts what `assertTopic` accepts, as the text of its scalar values. -/
theorem serverTopic_of_assertTopic {t : JsString} (h : assertTopic t = .ok ()) :
    ∃ topic, serverTopic t = some (.ok topic) ∧ topic.name = scalars t := by
  refine ⟨TopicName.topic ⟨t, h⟩, ?_, rfl⟩
  have hlow : Low subPrefix := by decide
  rw [serverTopic, commandId_eq hlow, PubsubCommands.stripFront_append, Option.map_some]
  exact congrArg some (Topic.tryFrom_utf8 (TopicName.topic ⟨t, h⟩))

/-! ### From the server to the client -/

theorem decode_utf8_text (text : List Char) :
    TextDecoder.decode (utf8 text) = utf16 (skipMark text) := decode_utf8 text

/-- Frames of a topic are no commands. -/
theorem isCommand_utf8 {text : List Char}
    (h : ∀ p ∈ [subPrefix, unsubPrefix, pubPrefix], ¬ p <+: text) : isCommand (utf8 text) = false := by
  rw [isCommand, List.any_eq_false]
  intro p hp
  have hnot : ¬ utf8 p <+: utf8 text := by
    rw [utf8, utf8, utf8_prefix_iff]
    exact h p hp
  simp [PubsubCommands.stripFront, hnot]

theorem isCommand_update (topic : Topic) : isCommand (utf8 topic.name) = false := by
  apply isCommand_utf8
  intro p hp
  refine topic.unreserved p ?_
  simp only [List.mem_cons, List.not_mem_nil, or_false] at hp
  rcases hp with rfl | rfl | rfl <;> decide

theorem isCommand_end (topic : Topic) : isCommand (utf8 (endPrefix ++ topic.name)) = false := by
  apply isCommand_utf8
  intro p hp
  simp only [List.mem_cons, List.not_mem_nil, or_false] at hp
  rcases hp with rfl | rfl | rfl <;>
    simp [subPrefix, unsubPrefix, pubPrefix, endPrefix, List.cons_prefix_cons]

/-- The end frame of a topic completes what its name reads as. -/
theorem route_end (text : List Char) :
    route (utf8 (endPrefix ++ text)) = .completes (utf16 text) := by
  have hskip : skipMark (endPrefix ++ text) = endPrefix ++ text := rfl
  rw [route, decode_utf8_text, hskip, utf16_append, if_pos ⟨utf16 text, rfl⟩, List.drop_left]

/-- An update that is delivered under a name was sent by a topic of that name. -/
theorem plain_of_route {t : JsString} (h : route (utf8 (scalars t)) = .updates t) : Plain t := by
  rw [route, decode_utf8_text] at h
  split at h
  · cases h
  · have hdec : utf16 (skipMark (scalars t)) = t := Route.updates.inj h
    rw [skipMark_scalars] at hdec
    by_cases hmark : t.head? = some 0xFEFF
    · -- without its mark the name is shorter
      rw [if_pos hmark] at hdec
      have hlen := congrArg List.length hdec
      rw [length_utf16_scalars, List.length_tail] at hlen
      cases t with
      | nil => cases hmark
      | cons u s =>
        simp only [List.length_cons] at hlen
        omega
    · rw [if_neg hmark] at hdec
      exact ⟨(utf16_scalars_iff t).mp hdec, hmark⟩

/-- A plain name is read back from its topic. -/
theorem utf16_scalars_of_plain {t : JsString} (h : Plain t) : utf16 (scalars t) = t :=
  (utf16_scalars_iff t).mpr h.1

theorem route_update_of_plain {t : JsString} (h : Plain t) (hok : assertTopic t = .ok ()) :
    route (utf8 (scalars t)) = .updates t := by
  have hend : ¬ utf16 endPrefix <+: t := (assertTopic_eq_ok hok).2 endPrefix (by decide)
  rw [route, decode_utf8_text, skipMark_scalars, if_neg h.2, utf16_scalars_of_plain h, if_neg hend]

theorem exact_of_plain {t : JsString} (h : Plain t) (hok : assertTopic t = .ok ()) : Exact t := by
  obtain ⟨topic, htopic, hname⟩ := serverTopic_of_assertTopic hok
  refine ⟨topic, htopic, ?_, ?_⟩
  · intro b order payload f hf
    have hid : f.id = utf8 topic.name := by rw [build_eq_ok hf]
    rw [hid]
    refine ⟨?_, isCommand_update topic⟩
    rw [hname]
    exact route_update_of_plain h hok
  · intro b order f hf
    rw [id_of_endFrame hf]
    refine ⟨?_, isCommand_end topic⟩
    rw [route_end, hname, utf16_scalars_of_plain h]

theorem plain_of_exact {t : JsString} (hok : assertTopic t = .ok ()) (h : Exact t) : Plain t := by
  obtain ⟨topic, htopic, hupdate, _⟩ := h
  obtain ⟨topic', htopic', hname⟩ := serverTopic_of_assertTopic hok
  obtain rfl : topic = topic' := by
    rw [htopic] at htopic'
    exact Except.ok.inj (Option.some.inj htopic')
  have hroute := (hupdate FrameBuilder.total 0 [] _ rfl).1
  rw [hname] at hroute
  exact plain_of_route hroute

theorem apart_of_plain {t t' : JsString} (hok : assertTopic t = .ok ()) (hok' : assertTopic t' = .ok ())
    (h : Plain t) (h' : Plain t') (hne : t ≠ t') : Apart t t' := by
  intro topic topic' htopic htopic'
  obtain ⟨x, hx, hname⟩ := serverTopic_of_assertTopic hok
  obtain ⟨x', hx', hname'⟩ := serverTopic_of_assertTopic hok'
  obtain rfl : topic = x := Except.ok.inj (Option.some.inj (htopic.symm.trans hx))
  obtain rfl : topic' = x' := Except.ok.inj (Option.some.inj (htopic'.symm.trans hx'))
  refine ⟨?_, ?_, ?_⟩
  · rintro rfl
    have hsame := hname.symm.trans hname'
    apply hne
    rw [← utf16_scalars_of_plain h, hsame, utf16_scalars_of_plain h']
  · rw [hname, hname', route_update_of_plain h hok, route_update_of_plain h' hok']
    simpa using hne
  · rw [route_end, route_end, hname, hname', utf16_scalars_of_plain h, utf16_scalars_of_plain h']
    simpa using hne

/-- **A topic name on its way.**  For every set of names that `assertTopic` accepts: each is
accepted by the server, its updates and its end come back to the entry under it and are
taken for nothing else, and no two share a topic or a route, exactly when every name is well
formed and has no byte order mark in front. -/
theorem topic_routing_exact_iff (S : Set JsString) (hS : ∀ t ∈ S, assertTopic t = .ok ()) :
    ((∀ t ∈ S, Exact t) ∧ ∀ t ∈ S, ∀ t' ∈ S, t ≠ t' → Apart t t') ↔ ∀ t ∈ S, Plain t := by
  constructor
  · rintro ⟨hexact, _⟩ t ht
    exact plain_of_exact (hS t ht) (hexact t ht)
  · intro hplain
    refine ⟨fun t ht => exact_of_plain (hplain t ht) (hS t ht), ?_⟩
    intro t ht t' ht' hne
    exact apart_of_plain (hS t ht) (hS t' ht') (hplain t ht) (hplain t' ht') hne

/-- Two names with everything a text may hold: `naïve/😀` and `end`. -/
theorem routing_of_two_names :
    ((∀ t ∈ ({utf16 ['n', 'a', 'ï', 'v', 'e', '/', '😀'], utf16 ['e', 'n', 'd']} : Set JsString),
        Exact t) ∧
      Apart (utf16 ['n', 'a', 'ï', 'v', 'e', '/', '😀']) (utf16 ['e', 'n', 'd'])) := by
  have hmain := (topic_routing_exact_iff
    {utf16 ['n', 'a', 'ï', 'v', 'e', '/', '😀'], utf16 ['e', 'n', 'd']} (by
      rintro t (rfl | rfl)
      · decide
      · decide)).mpr (by
      rintro t (rfl | rfl)
      · decide
      · decide)
  exact ⟨hmain.1, hmain.2 _ (Or.inl rfl) _ (Or.inr rfl) (by decide)⟩

/-- Accepted names that do not come back: the updates of a name with a byte order mark are
looked up under the name without it, those of another are taken for the end of a topic, and
two lone surrogates are one topic. -/
theorem marked_name_routes_elsewhere :
    ∃ t : JsString, t = 0xFEFF :: utf16 Topic.prices.name ∧ assertTopic t = .ok () ∧ ¬ Exact t ∧
      route (utf8 (scalars t)) = .updates (utf16 Topic.prices.name) ∧
    ∃ u : JsString, u = 0xFEFF :: utf16 (endPrefix ++ Topic.prices.name) ∧
      assertTopic u = .ok () ∧ route (utf8 (scalars u)) = .completes (utf16 Topic.prices.name) ∧
    ∃ v w : JsString, v = [0xD800] ∧ w = [0xD801] ∧ v ≠ w ∧ assertTopic v = .ok () ∧
      assertTopic w = .ok () ∧ ¬ Apart v w := by
  have hroute : ∀ text : List Char, Low text →
      route (utf8 (scalars (0xFEFF :: utf16 text))) =
        if utf16 endPrefix <+: utf16 text then
          .completes ((utf16 text).drop (utf16 endPrefix).length)
        else .updates (utf16 text) := by
    intro text hlow
    have hread : scalars (utf16 text) = text := by
      have happend := scalars_utf16_append hlow []
      rwa [List.append_nil, scalars, List.append_nil] at happend
    rw [route, decode_utf8_text, skipMark_scalars]
    simp [hread]
  refine ⟨_, rfl, by decide, ?_, ?_, _, rfl, by decide, ?_, [0xD800], [0xD801], rfl, rfl, by decide,
    by decide, by decide, ?_⟩
  · intro hexact
    exact absurd (plain_of_exact (by decide) hexact) (by decide)
  · rw [hroute _ (by decide)]
    decide
  · rw [hroute _ (by decide)]
    decide
  · intro hapart
    obtain ⟨topic, htopic, hname⟩ := serverTopic_of_assertTopic (t := [0xD800]) (by decide)
    obtain ⟨topic', htopic', hname'⟩ := serverTopic_of_assertTopic (t := [0xD801]) (by decide)
    refine (hapart topic topic' htopic htopic').2.1 ?_
    rw [hname, hname']
    decide

end Client
end TightbeamExt
