import Mathlib.Data.List.Sort
import TightbeamExt.Ws.Serve

/-!
# Routes by the prefix of a frame's id

A router answers a stream by the id of its request frame: of the routes whose key the id starts
with, the one with the longest key.  It sorts its table once, longest key first, and takes the
first match.  Two keys of one length cannot both match, so neither the order of the table nor the
one the sort leaves among equals is seen.

## Main definitions

* `RouteTable`, `router` — a table with its keys, and the handler built from it.
* `UnroutedTopicError.toJs` — what it throws where no key matches.

## Main results

* `RouteTable.claims_iff` — **the longest matching key wins**, and there is one.
* `router_answers` — what the peer is answered through a router.
-/

namespace TightbeamExt
namespace Ws

open Asn (Js Octets Runtime)
open Text

/-! ### The first match of a sorted list -/

section

variable {α : Type*} {size : α → ℕ} {p : α → Bool}

/-- In a list sorted by decreasing size, the first match is the largest one, where no two matches
are of one size. -/
theorem find?_sorted_iff {l : List α} (hsorted : l.Pairwise fun a b => size b ≤ size a)
    (hsize : ∀ a ∈ l, ∀ b ∈ l, p a = true → p b = true → size a = size b → a = b) {a : α} :
    l.find? p = some a ↔ a ∈ l ∧ p a = true ∧ ∀ b ∈ l, p b = true → size b ≤ size a := by
  induction l with
  | nil => simp
  | cons x l ih =>
    obtain ⟨hx, hsorted⟩ := List.pairwise_cons.1 hsorted
    have ih := ih hsorted fun a ha b hb =>
      hsize a (List.mem_cons_of_mem _ ha) b (List.mem_cons_of_mem _ hb)
    rw [List.find?_cons]
    cases hp : p x with
    | true =>
      dsimp only
      constructor
      · intro h
        cases h
        refine ⟨List.mem_cons_self, hp, fun b hb _ => ?_⟩
        rcases List.mem_cons.1 hb with rfl | hb
        · exact Nat.le_refl _
        · exact hx b hb
      · rintro ⟨ha, hpa, hmax⟩
        rcases List.mem_cons.1 ha with rfl | hmem
        · rfl
        · -- the first entry is no smaller, so it is the same
          have hle := hmax x List.mem_cons_self hp
          rw [hsize x List.mem_cons_self a ha hp hpa (Nat.le_antisymm hle (hx a hmem))]
    | false =>
      dsimp only
      rw [ih]
      constructor
      · rintro ⟨ha, hpa, hmax⟩
        refine ⟨List.mem_cons_of_mem _ ha, hpa, fun b hb hpb => ?_⟩
        rcases List.mem_cons.1 hb with rfl | hb
        · rw [hp] at hpb
          cases hpb
        · exact hmax b hb hpb
      · rintro ⟨ha, hpa, hmax⟩
        rcases List.mem_cons.1 ha with rfl | ha
        · rw [hp] at hpa
          cases hpa
        · exact ⟨ha, hpa, fun b hb => hmax b (List.mem_cons_of_mem _ hb)⟩

end

/-! ### Tables -/

/-- A table of routes.  The keys of an object are distinct. -/
structure RouteTable (ρ : Type) where
  /-- `Object.entries`. -/
  entries : List (List UInt16 × ρ)
  /-- The keys are distinct. -/
  nodup : (entries.map Prod.fst).Nodup

namespace RouteTable

variable {ρ : Type}

/-- `byLongestPrefix`. -/
def byLongestPrefix (table : RouteTable ρ) : List (List UInt16 × ρ) :=
  table.entries.insertionSort fun left right => right.1.length ≤ left.1.length

/-- The entry the loop of a router stops at. -/
def claim (table : RouteTable ρ) (topic : List UInt16) : Option (List UInt16 × ρ) :=
  table.byLongestPrefix.find? fun e => e.1.isPrefixOf topic

theorem eq_of_key {table : RouteTable ρ} {a b : List UInt16 × ρ} (ha : a ∈ table.entries)
    (hb : b ∈ table.entries) (h : a.1 = b.1) : a = b :=
  List.inj_on_of_nodup_map table.nodup ha hb h

/-- Two keys of one length that match are one. -/
theorem key_eq_of_length {topic p q : List UInt16} (hp : p <+: topic) (hq : q <+: topic)
    (h : p.length = q.length) : p = q :=
  (List.prefix_of_prefix_length_le hp hq h.le).eq_of_length h

/-- **The longest matching key wins.** -/
theorem claims_iff {table : RouteTable ρ} {topic : List UInt16} {e : List UInt16 × ρ} :
    table.claim topic = some e ↔ e ∈ table.entries ∧ e.1 <+: topic ∧
      ∀ f ∈ table.entries, f.1 <+: topic → f = e ∨ f.1.length < e.1.length := by
  have hsorted : table.byLongestPrefix.Pairwise fun a b => b.1.length ≤ a.1.length :=
    have : Std.Total fun a b : List UInt16 × ρ => b.1.length ≤ a.1.length :=
      ⟨fun a b => Nat.le_total b.1.length a.1.length⟩
    have : IsTrans (List UInt16 × ρ) fun a b => b.1.length ≤ a.1.length :=
      ⟨fun a b c hab hbc => Nat.le_trans hbc hab⟩
    List.pairwise_insertionSort _ _
  have hmem (f : List UInt16 × ρ) : f ∈ table.byLongestPrefix ↔ f ∈ table.entries :=
    List.mem_insertionSort _
  rw [claim, find?_sorted_iff hsorted]
  · simp only [hmem, List.isPrefixOf_iff_prefix]
    refine and_congr_right fun he => and_congr_right fun hp => forall₂_congr fun f hf => ?_
    refine imp_congr_right fun hq => ⟨fun hle => ?_, ?_⟩
    · rcases Nat.lt_or_eq_of_le hle with hlt | heq
      · exact .inr hlt
      · exact .inl (eq_of_key hf he (key_eq_of_length hq hp heq))
    · rintro (rfl | hlt)
      · exact Nat.le_refl _
      · exact hlt.le
  · intro a ha b hb hpa hpb hsize
    rw [List.isPrefixOf_iff_prefix] at hpa hpb
    exact eq_of_key ((hmem a).1 ha) ((hmem b).1 hb) (key_eq_of_length hpa hpb hsize)

/-- No route is claimed where no key matches. -/
theorem claim_eq_none_iff {table : RouteTable ρ} {topic : List UInt16} :
    table.claim topic = none ↔ ∀ e ∈ table.entries, ¬ e.1 <+: topic := by
  rw [claim, List.find?_eq_none]
  refine forall_congr' fun e => ?_
  rw [List.isPrefixOf_iff_prefix]
  exact imp_congr_left (List.mem_insertionSort _)

/-- The order of a table is not seen. -/
theorem claim_perm {table table' : RouteTable ρ} (h : table.entries.Perm table'.entries)
    (topic : List UInt16) : table.claim topic = table'.claim topic := by
  cases hclaim : table'.claim topic with
  | none =>
    rw [claim_eq_none_iff] at hclaim ⊢
    exact fun e he => hclaim e (h.mem_iff.1 he)
  | some e =>
    rw [claims_iff] at hclaim ⊢
    obtain ⟨he, hp, hmax⟩ := hclaim
    exact ⟨h.mem_iff.2 he, hp, fun f hf => hmax f (h.mem_iff.1 hf)⟩

end RouteTable

/-! ### Routers -/

/-- `UnroutedTopicError`, with the fields it has as a `StreamRefusal` and as an `Error`. -/
def UnroutedTopicError.toJs (topic : List UInt16) : Js :=
  .object (some .builtin)
    [("message", .string (utf16 "no route matches topic: ".toList ++ topic)),
      ("name", Js.text "UnroutedTopicError".toList),
      ("code", Js.text TransitStatus.unimplemented.code.toList), ("topic", .string topic)]

/-- A route, as far as a router sees it: what its `dispatch` settles with. -/
abbrev Route (G : Type) := G → Except Js (Option G)

/-- `router`: the handler over a table; `id` is the id of a frame. -/
def router {G : Type} (id : G → Octets) (table : RouteTable (Route G)) : Route G := fun frame =>
  match table.claim (TextDecoder.decode (id frame)) with
  | some e => e.2 frame
  | none => .error (UnroutedTopicError.toJs (TextDecoder.decode (id frame)))

/-- What a promise settles with, as the serve loop sees it. -/
def Settled.ofPromise {G : Type} : Except Js (Option G) → Settled G
  | .ok response => .frame response
  | .error rejection => .rejected rejection

theorem refusalFor_unrouted (R : Runtime) (topic : List UInt16) :
    refusalFor R (UnroutedTopicError.toJs topic) = .unimplemented := by
  have hget : Js.get R (UnroutedTopicError.toJs topic) "code" =
      .ok (Js.text TransitStatus.unimplemented.code.toList) := rfl
  rw [refusalFor, hget]
  simp only [Except.bind, Asn.asString_text]
  rfl

section

variable {F G : Type} {R : Runtime} {L : FrameGlue F G}

theorem answer_unary (frame : F) (promise : Except Js (Option G)) :
    answer R L (.unary frame) (.ofPromise promise) = some (respondViaJs R L frame promise) := by
  cases promise <;> rfl

/-- A rejection of the handler answers with its code, once the request was carried to it. -/
theorem respondViaJs_rejected {frame : F} {der : Octets} {request : G}
    (hder : L.toDer frame = .ok der) (hparse : L.parse der = .ok request) (rejection : Js) :
    respondViaJs R L frame (.error rejection) = ⟨refusalFor R rejection, none⟩ := by
  simp [respondViaJs, respond, hder, hparse, Except.mapError, bind, Except.bind]

end

/-- **What the peer is answered through a router**: what the route with the longest matching key
settles with, in whatever order the table is written; `Unimplemented` where no key matches.  The id
is read as UTF-8, so that the id of a well-formed text is matched as the text itself. -/
theorem router_answers {F G : Type} (R : Runtime) (L : FrameGlue F G) (id : G → Octets)
    (table : RouteTable (Route G)) {frame : F} {der : Octets} {request : G}
    (hder : L.toDer frame = .ok der) (hparse : L.parse der = .ok request) :
    (∀ e ∈ table.entries, e.1 <+: TextDecoder.decode (id request) →
      (∀ f ∈ table.entries, f.1 <+: TextDecoder.decode (id request) → f.1.length ≤ e.1.length) →
        answer R L (.unary frame) (.ofPromise (router id table request)) =
          some (respondViaJs R L frame (e.2 request))) ∧
    ((∀ e ∈ table.entries, ¬ e.1 <+: TextDecoder.decode (id request)) →
      answer R L (.unary frame) (.ofPromise (router id table request)) =
        some ⟨.unimplemented, none⟩) ∧
    (∀ table' : RouteTable (Route G), table.entries.Perm table'.entries →
      router id table' request = router id table request) ∧
    ∀ topic : List UInt16, wellFormed topic = true → topic.head? ≠ some 0xFEFF →
      id request = TextEncoder.encode topic → TextDecoder.decode (id request) = topic := by
  refine ⟨fun e he hp hmax => ?_, fun hnone => ?_, fun table' hperm => ?_, ?_⟩
  · have hclaim : table.claim (TextDecoder.decode (id request)) = some e := by
      rw [RouteTable.claims_iff]
      refine ⟨he, hp, fun f hf hq => ?_⟩
      rcases Nat.lt_or_eq_of_le (hmax f hf hq) with hlt | heq
      · exact .inr hlt
      · exact .inl (RouteTable.eq_of_key hf he (RouteTable.key_eq_of_length hq hp heq))
    rw [answer_unary, router, hclaim]
  · rw [answer_unary, router, RouteTable.claim_eq_none_iff.2 hnone]
    dsimp only
    rw [respondViaJs_rejected hder hparse, refusalFor_unrouted]
  · rw [router, router, RouteTable.claim_perm hperm]
  · intro topic hwell hmark hid
    rw [hid, TextEncoder.encode, decode_utf8, skipMark_scalars, if_neg hmark]
    exact (utf16_scalars_iff topic).2 hwell

namespace Small

/-- `a/` and `a/b/`, the longer key last. -/
def tickTable : RouteTable (Route Octets) where
  entries := [(utf16 ['a', '/'], fun _ => .ok none),
    (utf16 ['a', '/', 'b', '/'], fun frame => .ok (some frame))]
  nodup := by decide

/-- The octets of `a/b/c`. -/
def spot : Octets := ['a', '/', 'b', '/', 'c'].flatMap String.utf8EncodeChar

theorem decode_spot : TextDecoder.decode spot = utf16 ['a', '/', 'b', '/', 'c'] :=
  (decode_utf8 ['a', '/', 'b', '/', 'c']).trans rfl

/-- A frame that is handed back is carried. -/
theorem respondViaJs_octets (R : Runtime) (octets : Octets) :
    respondViaJs R octetGlue octets (.ok (some octets)) = ⟨.ok, some octets⟩ := rfl

/-- The longer key wins, though it is written last. -/
theorem spot_routed : answer ⟨[], fun _ _ => .absent, fun _ _ => true⟩ octetGlue (.unary spot)
    (.ofPromise (router id tickTable spot)) = some ⟨.ok, some spot⟩ := by
  have hroute := (@router_answers _ _ ⟨[], fun _ _ => .absent, fun _ _ => true⟩ octetGlue id tickTable spot spot spot rfl rfl).1 _
    (List.mem_cons_of_mem _ List.mem_cons_self) (by rw [id, decode_spot]; decide)
    (by rw [id, decode_spot]; decide)
  rw [hroute, respondViaJs_octets]

end Small

end Ws
end TightbeamExt
