import TightbeamExt.Asn.RoundTrip

/-!
# Fields and values

The derive writes each conversion twice, once for a named field and once for a value inside a
container, with checks of its own at each level: a field that is missing or `null` is refused
before its type is asked, and an absent option is left out where a value would be `null`.  The two
agree, up to what an object answers to without having been told, and up to a struct without
fields, which reads anything.

## Main results

* `fromField_eq` — a field is read as the value under its name.
* `stored_reads_back` — what was stored for a field is read as what is written for its value.
* `levels_agree` — **a type is the same as a field and inside a container.**
-/

namespace TightbeamExt
namespace Asn

variable {ι : Type*} {R : Runtime} {D : Der ι} {Γ : Schema ι}

/-! ### Reading -/

/-- A struct without fields. -/
def FieldKind.isBlank (Γ : Schema ι) : FieldKind ι → Bool
  | .nested n =>
      match Γ n with
      | .sequence [] _ => true
      | _ => false
  | _ => false

/-- A primitive has no fields. -/
theorem fromField_error {kind : FieldKind ι} {key : String} {object : Js} {e : DerError}
    (h : object.get R key = .error e) : fromField R D Γ kind key object = .error e := by
  have hobject : objectField R object key = .error e := by rw [objectField, h]
  have harray : arrayField R object key = .error e := by rw [arrayField, hobject]
  cases kind with
  | leaf k =>
    cases k with
    | null => rw [fromField, h]; rfl
    | _ =>
      rw [fromField, hobject]
      · rfl
      · intro hnull
        cases hnull
  | nested n => rw [fromField_nested, hobject]; rfl
  | option inner => rw [fromField_option, optionalField, h]; rfl
  | vec inner => rw [fromField_vec, harray]; rfl
  | setOfVec inner => rw [fromField_setOfVec, harray]; rfl
  | sequenceOf inner len => rw [fromField_sequenceOf, harray]; rfl
  | setOf inner len => rw [fromField_setOf, harray]; rfl

/-- Only `Null` is read off a nullish value. -/
theorem interpret_nullish {C : Constructors} {k : LeafKind} {js : Js} (hjs : js.nullish = true)
    (hk : k ≠ .null) : interpret R C k js = .error .failed := by
  cases js with
  | undefined | null =>
    cases k with
    | null => exact absurd rfl hk
    | int k => cases k <;> rfl
    | _ => rfl
  | _ => cases hjs

theorem asArray_nullish {js : Js} (hjs : js.nullish = true) : asArray js = .error .failed := by
  cases js with
  | undefined | null => rfl
  | _ => cases hjs

theorem get_nullish {js : Js} (hjs : js.nullish = true) (key : String) :
    js.get R key = .error .failed := by
  cases js with
  | undefined | null => rfl
  | _ => cases hjs

/-- A nullish value is no wire type but a struct without fields. -/
theorem fromJs_nullish {n : ι} {js : Js} (hjs : js.nullish = true)
    (hblank : (FieldKind.nested n).isBlank Γ = false) : fromJs R D Γ n js = .error .failed := by
  rw [fromJs]
  split
  · next fields distinct hn =>
    cases fields with
    | nil => simp [FieldKind.isBlank, hn] at hblank
    | cons f fields =>
      obtain ⟨key, kind⟩ := f
      rw [fromFields, fromField_error (get_nullish hjs key)]
      rfl
  · cases js with
    | undefined | null => rfl
    | _ => cases hjs
  · cases js with
    | undefined | null => rfl
    | _ => cases hjs

/-- **A field is read as the value under its name**, but for a struct without fields that is not
there. -/
theorem fromField_eq {kind : FieldKind ι} {key : String} {object : Js}
    (hblank : ∀ js, object.get R key = .ok js → js.nullish = true → kind.isBlank Γ = false) :
    fromField R D Γ kind key object = (object.get R key).bind (fromValue R D Γ kind) := by
  cases hget : object.get R key with
  | error e => exact fromField_error hget
  | ok js =>
    cases hjs : js.nullish with
    | false => exact fromField_of_get hget hjs
    | true =>
      -- the check of the field refuses what the check of the value would refuse later
      have hobject : objectField R object key = .error .failed := by simp [objectField, hget, hjs]
      have harray : arrayField R object key = .error .failed := by rw [arrayField, hobject]
      show _ = fromValue R D Γ kind js
      cases kind with
      | leaf k =>
        by_cases hk : k = .null
        · subst hk
          rw [fromField, fromValue, hget, interpret]
          show (asNull js).map _ = _
          cases asNull js <;> rfl
        · rw [fromField, fromValue, hobject, interpret_nullish hjs hk]
          · rfl
          · exact hk
      | nested n =>
        rw [fromField_nested, fromValue, hobject, fromJs_nullish hjs (hblank js hget hjs)]
        rfl
      | option inner =>
        have hoptional : optionalField R object key = .ok none := by
          simp [optionalField, hget, hjs]
        rw [fromField_option, fromValue, hoptional, if_pos hjs]
        rfl
      | vec inner => rw [fromField_vec, fromValue_vec, harray, asArray_nullish hjs]
      | setOfVec inner => rw [fromField_setOfVec, fromValue_setOfVec, harray, asArray_nullish hjs]
      | sequenceOf inner len =>
        rw [fromField_sequenceOf, fromValue_sequenceOf, harray, asArray_nullish hjs]
      | setOf inner len => rw [fromField_setOf, fromValue_setOf, harray, asArray_nullish hjs]

/-! ### Storing -/

/-- What was set is read. -/
theorem get_set {proto : Option Js} {own : List (String × Js)} {key : String} (js : Js)
    (hkey : key ≠ Js.protoKey) (hset : Js.settable R (.object proto own) key = true) :
    ((Js.object proto own).set R key js).bind (·.get R key) = .ok js := by
  rw [Js.set_of_settable js hkey hset]
  show Js.get R (.object proto (Js.upsert key js own)) key = _
  refine Js.get_of_lookup ?_
  rw [Js.lookup_upsert, if_pos rfl]

/-- What is not found is `undefined`. -/
theorem get_of_find {proto : Option Js} {own : List (String × Js)} {key : String}
    (hkey : key ≠ Js.protoKey) (h : Js.find R (.object proto own) key = none) :
    Js.get R (.object proto own) key = .ok .undefined := by
  simp [Js.get, Js.isObject, h, hkey]

/-- What `quote_to` stored is read back as what `quote_to_value` wrote.  An absent option is not
stored, and is read back as absent if nothing else has the name. -/
theorem stored_reads_back {kind : FieldKind ι} {key : String} {v : Value} {proto : Option Js}
    {own : List (String × Js)} (hkey : key ≠ Js.protoKey)
    (hsettable : Js.settable R (.object proto own) key = true)
    (habsent : v = .option none → Js.find R (.object proto own) key = none) :
    (toField R Γ kind key v (.object proto own)).bind
        (fun object => (object.get R key).bind (fromValue R D Γ kind)) =
      (toValue R Γ kind v).bind (fromValue R D Γ kind) := by
  by_cases hnone : ∃ inner, kind = .option inner ∧ v = .option none
  · obtain ⟨inner, rfl, rfl⟩ := hnone
    have hstored : toField R Γ (.option inner) key (.option none) (.object proto own) =
        .ok (.object proto own) := by rw [toField]
    have hwritten : toValue R Γ (.option inner) (.option none) = .ok .null := by rw [toValue]
    rw [hstored, hwritten]
    show (Js.get R (.object proto own) key).bind _ = fromValue R D Γ (.option inner) .null
    rw [get_of_find hkey (habsent rfl)]
    show fromValue R D Γ (.option inner) .undefined = _
    rw [fromValue, fromValue]
    rfl
  · push Not at hnone
    rw [toField_eq key _ hnone]
    cases toValue R Γ kind v with
    | error e => rfl
    | ok js =>
      show (Js.set R (.object proto own) key js).bind _ = fromValue R D Γ kind js
      have hget := @get_set R proto own key js hkey hsettable
      cases hset : Js.set R (.object proto own) key js with
      | error e => rw [hset] at hget; cases hget
      | ok object =>
        rw [hset] at hget
        have hread : Js.get R object key = .ok js := hget
        show (Js.get R object key).bind _ = _
        rw [hread]
        rfl

/-- **A type is the same as a field and inside a container.**  A field of any kind is read off any
value as the value under its name is, unless it is a struct without fields and there is nothing
under the name.  And what was stored for a field is read back as what is written for the same value
inside a container, unless the field is called `__proto__`, a prototype refuses a set of its name,
or an absent option has a name that the object answers to anyway.  No prototype of an object that
`js::object` made refuses a name. -/
theorem levels_agree (R : Runtime) (D : Der ι) (Γ : Schema ι) :
    (∀ (kind : FieldKind ι) (key : String) (object : Js),
      (∀ js, object.get R key = .ok js → js.nullish = true → kind.isBlank Γ = false) →
      fromField R D Γ kind key object = (object.get R key).bind (fromValue R D Γ kind)) ∧
    ∀ (kind : FieldKind ι) (key : String) (v : Value) (proto : Option Js)
      (own : List (String × Js)), key ≠ Js.protoKey →
      (proto = none ∨ Js.settable R (.object proto own) key = true) →
      (v = .option none → Js.find R (.object proto own) key = none) →
      (toField R Γ kind key v (.object proto own)).bind
          (fun object => (object.get R key).bind (fromValue R D Γ kind)) =
        (toValue R Γ kind v).bind (fromValue R D Γ kind) := by
  refine ⟨fun _ _ _ hblank => fromField_eq hblank, ?_⟩
  intro kind key v proto own hkey hset habsent
  refine stored_reads_back hkey ?_ habsent
  rcases hset with rfl | hset
  · rw [Js.settable]
  · exact hset

/-- Structs without fields. -/
def Sample.blank : Schema Sample := fun _ => .sequence [] (by simp)

/-- A list of numbers, stored as a field and written as a value. -/
theorem list_agrees :
    fromField Sample.runtime Sample.der Sample.schema (.vec (.leaf (.int .u8))) "sizes"
        (.object none [("sizes", .array [.int 3, .int 1])]) =
      fromValue Sample.runtime Sample.der Sample.schema (.vec (.leaf (.int .u8)))
        (.array [.int 3, .int 1]) ∧
    (toField Sample.runtime Sample.schema (.option (.leaf (.int .u8))) "size" (.option none)
        .empty).bind (fun object => (object.get Sample.runtime "size").bind
          (fromValue Sample.runtime Sample.der Sample.schema (.option (.leaf (.int .u8))))) =
      (toValue Sample.runtime Sample.schema (.option (.leaf (.int .u8))) (.option none)).bind
        (fromValue Sample.runtime Sample.der Sample.schema (.option (.leaf (.int .u8)))) := by
  obtain ⟨hread, hstored⟩ := levels_agree Sample.runtime Sample.der Sample.schema
  refine ⟨hread _ _ _ fun _ _ _ => rfl, hstored _ _ _ none [] (by decide) (.inl rfl) fun _ => ?_⟩
  decide

/-- A missing struct without fields is refused as a field and read inside a container, an absent
field called `constructor` is found in the prototype, and a field called `__proto__` is lost. -/
theorem levels_differ :
    (fromField Sample.runtime Sample.der Sample.blank (.nested .capped) "child" .empty =
        .error .failed ∧
      (Js.empty.get Sample.runtime "child").bind
        (fromValue Sample.runtime Sample.der Sample.blank (.nested .capped)) = .ok (.record [])) ∧
    ((toField Sample.runtime Sample.schema (.option (.leaf (.int .u8))) "constructor"
        (.option none) .empty).bind (fun object => (object.get Sample.runtime "constructor").bind
          (fromValue Sample.runtime Sample.der Sample.schema (.option (.leaf (.int .u8))))) =
        .error .failed ∧
      (toValue Sample.runtime Sample.schema (.option (.leaf (.int .u8))) (.option none)).bind
        (fromValue Sample.runtime Sample.der Sample.schema (.option (.leaf (.int .u8)))) =
        .ok (.option none)) ∧
    (toField Sample.runtime Sample.schema (.leaf .bool) "__proto__" (.leaf (.bool true))
        .empty).bind (fun object => (object.get Sample.runtime "__proto__").bind
          (fromValue Sample.runtime Sample.der Sample.schema (.leaf .bool))) = .error .failed ∧
      (toValue Sample.runtime Sample.schema (.leaf .bool) (.leaf (.bool true))).bind
        (fromValue Sample.runtime Sample.der Sample.schema (.leaf .bool)) =
        .ok (.leaf (.bool true)) := by
  refine ⟨⟨?_, ?_⟩, ⟨?_, ?_⟩, ?_, ?_⟩
  · rw [fromField_nested]
    rfl
  · show fromValue Sample.runtime Sample.der Sample.blank (.nested .capped) .undefined = _
    rw [fromValue, fromJs]
    show (fromFields Sample.runtime Sample.der Sample.blank [] .undefined).map _ = _
    rw [fromFields]
    rfl
  · rw [toField]
    show fromValue Sample.runtime Sample.der Sample.schema (.option (.leaf (.int .u8))) .builtin = _
    simp only [fromValue]
    rfl
  · rw [toValue]
    show fromValue Sample.runtime Sample.der Sample.schema (.option (.leaf (.int .u8))) .null = _
    rw [fromValue]
    rfl
  · rw [toField]
    show fromValue Sample.runtime Sample.der Sample.schema (.leaf .bool) .builtin = _
    rw [fromValue]
    rfl
  · rw [toValue]
    show fromValue Sample.runtime Sample.der Sample.schema (.leaf .bool) (.bool true) = _
    rw [fromValue]
    rfl

end Asn
end TightbeamExt
