import Mathlib.Data.List.Chain
import TightbeamExt.Asn.Codec

/-!
# Round trips through JavaScript

A value the codec library decoded goes to JavaScript and comes back.  It comes back as it was
unless JavaScript cannot tell it from another: `null` stands both for `Null` and for an absent
option, an array for a `SequenceOf` or `SetOf` must be full, and an object answers to names it
inherits.

## Main definitions

* `Typed` — the values of a type, as the codec library decodes them.
* `Faithful` — JavaScript keeps the value apart from others.

## Main results

* `toField_eq` — a field is stored as the value is written.
* `codec_round_trip` — **what is faithful comes back**, octet for octet.
* `unfaithful_values_change` — each clause of `Faithful` is needed.
-/

namespace TightbeamExt
namespace Asn

variable {ι : Type*}

/-- In the order of a `SET OF`, without duplicates. -/
def Der.Ascending (D : Der ι) (items : List Value) : Prop :=
  items.IsChain fun x y => D.cmp x y = .lt

/-- The collections of the codec library rebuild what they held: a `SequenceOf` takes every item
it has room for, a `SetOf` one that comes behind the others in order, and a `SetOfVec` leaves
items in order as they are. -/
structure Der.Rebuilds (D : Der ι) : Prop where
  /-- `SequenceOf::add`. -/
  add : ∀ len items v, items.length < len → D.add len items v = .ok (items ++ [v])
  /-- `SetOf::insert`. -/
  insert : ∀ len items v, items.length < len → D.Ascending (items ++ [v]) →
    D.insert len items v = .ok (items ++ [v])
  /-- `SetOfVec::try_from`. -/
  sort : ∀ items, D.Ascending items → D.sort items = .ok items

/-- The values of a field type that the codec library decodes. -/
inductive Typed (D : Der ι) (Γ : Schema ι) : FieldKind ι → Value → Prop
  /-- A leaf. -/
  | leaf {k : LeafKind} {v : Leaf} : v.Valid D.toConstructors k → Typed D Γ (.leaf k) (.leaf v)
  /-- A struct. -/
  | record {n : ι} {fields : List (String × FieldKind ι)} {distinct : (fields.map Prod.fst).Nodup}
      {vs : List Value} : Γ n = .sequence fields distinct → fields.length = vs.length →
      (∀ f v, (f, v) ∈ fields.zip vs → Typed D Γ f.2 v) → Typed D Γ (.nested n) (.record vs)
  /-- A discriminant. -/
  | enumerated {n : ι} {discriminants : List UInt8} {d : UInt8} :
      Γ n = .enumerated discriminants → d ∈ discriminants → Typed D Γ (.nested n) (.enumerated d)
  /-- A tagged payload. -/
  | variant {n n' : ι} {variants : List (String × ι)} {distinct : (variants.map Prod.fst).Nodup}
      {name : String} {payload : Value} : Γ n = .choice variants distinct →
      variants.lookup name = some n' → Typed D Γ (.nested n') payload →
      Typed D Γ (.nested n) (.variant name payload)
  /-- `None`. -/
  | none {k : FieldKind ι} : Typed D Γ (.option k) (.option none)
  /-- `Some`. -/
  | some {k : FieldKind ι} {v : Value} : Typed D Γ k v → Typed D Γ (.option k) (.option (some v))
  /-- A `Vec`. -/
  | vec {k : FieldKind ι} {vs : List Value} : (∀ v ∈ vs, Typed D Γ k v) →
      Typed D Γ (.vec k) (.list vs)
  /-- A `SetOfVec`. -/
  | setOfVec {k : FieldKind ι} {vs : List Value} : (∀ v ∈ vs, Typed D Γ k v) → D.Ascending vs →
      Typed D Γ (.setOfVec k) (.list vs)
  /-- A `SequenceOf`, which may hold fewer items than it has room for. -/
  | sequenceOf {k : FieldKind ι} {len : ℕ} {vs : List Value} : (∀ v ∈ vs, Typed D Γ k v) →
      vs.length ≤ len → Typed D Γ (.sequenceOf k len) (.list vs)
  /-- A `SetOf`, likewise. -/
  | setOf {k : FieldKind ι} {len : ℕ} {vs : List Value} : (∀ v ∈ vs, Typed D Γ k v) →
      D.Ascending vs → vs.length ≤ len → Typed D Γ (.setOf k len) (.list vs)

/-- It is `null` in JavaScript. -/
def Value.isNull : Value → Bool
  | .leaf .null => true
  | .option none => true
  | _ => false

/-- JavaScript keeps the value apart from others: a present option is not `null`, a
`SequenceOf` or `SetOf` is full, no field or variant is called `__proto__`, and no absent field
has the name of something every object inherits. -/
inductive Faithful (R : Runtime) (Γ : Schema ι) : FieldKind ι → Value → Prop
  /-- A leaf. -/
  | leaf {k : LeafKind} {v : Leaf} : Faithful R Γ (.leaf k) (.leaf v)
  /-- A struct. -/
  | record {n : ι} {fields : List (String × FieldKind ι)} {distinct : (fields.map Prod.fst).Nodup}
      {vs : List Value} : Γ n = .sequence fields distinct →
      (∀ f v, (f, v) ∈ fields.zip vs → f.1 ≠ Js.protoKey) →
      (∀ f v, (f, v) ∈ fields.zip vs → v = .option none → f.1 ∉ R.objectMembers) →
      (∀ f v, (f, v) ∈ fields.zip vs → Faithful R Γ f.2 v) → Faithful R Γ (.nested n) (.record vs)
  /-- A discriminant. -/
  | enumerated {n : ι} {d : UInt8} : Faithful R Γ (.nested n) (.enumerated d)
  /-- A tagged payload. -/
  | variant {n n' : ι} {variants : List (String × ι)} {distinct : (variants.map Prod.fst).Nodup}
      {name : String} {payload : Value} : Γ n = .choice variants distinct →
      variants.lookup name = some n' → name ≠ Js.protoKey → Faithful R Γ (.nested n') payload →
      Faithful R Γ (.nested n) (.variant name payload)
  /-- `None`. -/
  | none {k : FieldKind ι} : Faithful R Γ (.option k) (.option none)
  /-- `Some`. -/
  | some {k : FieldKind ι} {v : Value} : v.isNull = false → Faithful R Γ k v →
      Faithful R Γ (.option k) (.option (some v))
  /-- A `Vec`. -/
  | vec {k : FieldKind ι} {vs : List Value} : (∀ v ∈ vs, Faithful R Γ k v) →
      Faithful R Γ (.vec k) (.list vs)
  /-- A `SetOfVec`. -/
  | setOfVec {k : FieldKind ι} {vs : List Value} : (∀ v ∈ vs, Faithful R Γ k v) →
      Faithful R Γ (.setOfVec k) (.list vs)
  /-- A full `SequenceOf`. -/
  | sequenceOf {k : FieldKind ι} {len : ℕ} {vs : List Value} : (∀ v ∈ vs, Faithful R Γ k v) →
      vs.length = len → Faithful R Γ (.sequenceOf k len) (.list vs)
  /-- A full `SetOf`. -/
  | setOf {k : FieldKind ι} {len : ℕ} {vs : List Value} : (∀ v ∈ vs, Faithful R Γ k v) →
      vs.length = len → Faithful R Γ (.setOf k len) (.list vs)

variable {R : Runtime} {D : Der ι} {Γ : Schema ι}

/-! ### Collections -/

/-- Items added one by one. -/
def addAll (add : List Value → Value → Except DerError (List Value)) :
    List Value → List Value → Except DerError (List Value)
  | collected, [] => .ok collected
  | collected, v :: vs => (add collected v).bind fun collected => addAll add collected vs

theorem addAll_pushItem : ∀ (vs collected : List Value),
    addAll pushItem collected vs = .ok (collected ++ vs) := by
  intro vs
  induction vs with
  | nil => intro collected; simp [addAll]
  | cons v vs ih =>
    intro collected
    show addAll pushItem (collected ++ [v]) vs = _
    rw [ih, List.append_assoc]
    rfl

theorem addAll_add (hbuild : D.Rebuilds) {len : ℕ} : ∀ (vs collected : List Value),
    collected.length + vs.length ≤ len →
    addAll (D.add len) collected vs = .ok (collected ++ vs) := by
  intro vs
  induction vs with
  | nil => intro collected _; simp [addAll]
  | cons v vs ih =>
    intro collected hlen
    rw [List.length_cons] at hlen
    have hadd : D.add len collected v = .ok (collected ++ [v]) :=
      hbuild.add len collected v (by omega)
    show (D.add len collected v).bind _ = _
    rw [hadd]
    show addAll (D.add len) (collected ++ [v]) vs = _
    rw [ih _ (by simp only [List.length_append, List.length_singleton]; omega), List.append_assoc]
    rfl

theorem addAll_insert (hbuild : D.Rebuilds) {len : ℕ} : ∀ (vs collected : List Value),
    D.Ascending (collected ++ vs) → collected.length + vs.length ≤ len →
    addAll (D.insert len) collected vs = .ok (collected ++ vs) := by
  intro vs
  induction vs with
  | nil => intro collected _ _; simp [addAll]
  | cons v vs ih =>
    intro collected hasc hlen
    rw [List.length_cons] at hlen
    have hasc' : D.Ascending ((collected ++ [v]) ++ vs) := by simpa using hasc
    have hadd : D.insert len collected v = .ok (collected ++ [v]) :=
      hbuild.insert len collected v (by omega) (List.isChain_append.mp hasc').1
    show (D.insert len collected v).bind _ = _
    rw [hadd]
    show addAll (D.insert len) (collected ++ [v]) vs = _
    rw [ih _ hasc' (by simp only [List.length_append, List.length_singleton]; omega),
      List.append_assoc]
    rfl

/-! ### The generators as equations

The conversions recurse on the value and carry the proof that it gets smaller.  These are their
equations without it. -/

section Equations

variable (kind inner : FieldKind ι) (len : ℕ) (key : String) (object value : Js)

theorem fromField_nested (n : ι) : fromField R D Γ (.nested n) key object =
    (objectField R object key).bind (fromJs R D Γ n) := by
  rw [fromField]
  split <;> next h => simp only [h, Except.bind]

theorem fromField_option : fromField R D Γ (.option inner) key object =
    (optionalField R object key).bind fun
      | none => .ok (.option none)
      | some present => (fromValue R D Γ inner present).map fun v => .option (some v) := by
  rw [fromField]
  split <;> next h => simp only [h, Except.bind]

theorem fromField_vec : fromField R D Γ (.vec inner) key object =
    (arrayField R object key).bind fun items =>
      (fromItems R D Γ pushItem inner items []).map .list := by
  rw [fromField]
  split <;> next h => simp only [h, Except.bind]

theorem fromField_setOfVec : fromField R D Γ (.setOfVec inner) key object =
    (arrayField R object key).bind fun items =>
      ((fromItems R D Γ pushItem inner items []).bind D.sort).map .list := by
  rw [fromField]
  split <;> next h => simp only [h, Except.bind]

theorem fromField_sequenceOf : fromField R D Γ (.sequenceOf inner len) key object =
    (arrayField R object key).bind fun items =>
      if items.length ≠ len then .error .failed
      else (fromItems R D Γ (D.add len) inner items []).map .list := by
  rw [fromField]
  split <;> next h => simp only [h, Except.bind]

theorem fromField_setOf : fromField R D Γ (.setOf inner len) key object =
    (arrayField R object key).bind fun items =>
      if items.length ≠ len then .error .failed
      else (fromItems R D Γ (D.insert len) inner items []).map .list := by
  rw [fromField]
  split <;> next h => simp only [h, Except.bind]

theorem fromValue_vec : fromValue R D Γ (.vec inner) value =
    (asArray value).bind fun items => (fromItems R D Γ pushItem inner items []).map .list := by
  rw [fromValue]
  split <;> next h => simp only [h, Except.bind]

theorem fromValue_setOfVec : fromValue R D Γ (.setOfVec inner) value =
    (asArray value).bind fun items =>
      ((fromItems R D Γ pushItem inner items []).bind D.sort).map .list := by
  rw [fromValue]
  split <;> next h => simp only [h, Except.bind]

/-- `as_array_len` checks the length the loop is guarded by. -/
theorem asArrayLen_bind {α : Type} (f : List Js → Except DerError α) :
    ((asArrayLen value len).bind fun items =>
        if items.length ≠ len then .error .failed else f items) =
      (asArray value).bind fun items => if items.length ≠ len then .error .failed else f items := by
  unfold asArrayLen
  cases asArray value with
  | error e => rfl
  | ok items =>
    by_cases hlen : items.length = len
    · simp only [hlen, ne_eq, not_true_eq_false, if_false, Except.bind]
    · simp only [hlen, ne_eq, not_false_eq_true, if_true, Except.bind]

theorem fromValue_sequenceOf : fromValue R D Γ (.sequenceOf inner len) value =
    (asArray value).bind fun items =>
      if items.length ≠ len then .error .failed
      else (fromItems R D Γ (D.add len) inner items []).map .list := by
  rw [← asArrayLen_bind, fromValue]
  split <;> next h => simp only [h, Except.bind]

theorem fromValue_setOf : fromValue R D Γ (.setOf inner len) value =
    (asArray value).bind fun items =>
      if items.length ≠ len then .error .failed
      else (fromItems R D Γ (D.insert len) inner items []).map .list := by
  rw [← asArrayLen_bind, fromValue]
  split <;> next h => simp only [h, Except.bind]

end Equations

/-! ### Values -/

/-- The value comes back from JavaScript.  Only an absent option and `Null` are nullish on the
way. -/
def Returns (R : Runtime) (D : Der ι) (Γ : Schema ι) (kind : FieldKind ι) (v : Value) : Prop :=
  ∃ js, toValue R Γ kind v = .ok js ∧ fromValue R D Γ kind js = .ok v ∧
    (js.nullish = true → v = .option none ∨ kind = .leaf .null ∧ js = .null)

theorem returns_leaf {k : LeafKind} {v : Leaf} (h : v.Valid D.toConstructors k) :
    Returns R D Γ (.leaf k) (.leaf v) := by
  obtain ⟨js, hproject, hinterpret, hnull⟩ := interpret_project (R := R) h
  refine ⟨js, by rw [toValue, hproject], by rw [fromValue, hinterpret]; rfl, fun hjs => ?_⟩
  obtain rfl := hnull.mp hjs
  refine .inr ⟨rfl, ?_⟩
  cases v with
  | null => cases hproject; rfl
  | _ => cases hproject

theorem returns_none {k : FieldKind ι} : Returns R D Γ (.option k) (.option none) := by
  refine ⟨.null, by rw [toValue], ?_, fun _ => .inl rfl⟩
  rw [fromValue]
  rfl

theorem returns_some {k : FieldKind ι} {v : Value} (hnull : v.isNull = false)
    (h : Returns R D Γ k v) : Returns R D Γ (.option k) (.option (some v)) := by
  obtain ⟨js, hto, hfrom, hjs⟩ := h
  have hpresent : js.nullish = false := by
    by_contra hnot
    rw [Bool.not_eq_false] at hnot
    rcases hjs hnot with rfl | ⟨rfl, rfl⟩
    · cases hnull
    · rw [fromValue] at hfrom
      cases hfrom
      cases hnull
  refine ⟨js, by rw [toValue, hto], ?_, fun hnot => absurd hnot (by simp [hpresent])⟩
  rw [fromValue, hpresent, hfrom]
  rfl

/-- The items of a container come back one by one. -/
theorem items_return {inner : FieldKind ι} : ∀ {vs : List Value},
    (∀ v ∈ vs, Returns R D Γ inner v) →
    ∃ items, toItems R Γ inner vs = .ok items ∧ items.length = vs.length ∧
      ∀ add collected, fromItems R D Γ add inner items collected = addAll add collected vs := by
  intro vs
  induction vs with
  | nil => exact fun _ => ⟨[], by rw [toItems], rfl, fun add collected => by rw [fromItems, addAll]⟩
  | cons v vs ih =>
    intro h
    obtain ⟨js, hto, hfrom, -⟩ := h v (List.mem_cons_self ..)
    obtain ⟨items, htos, hlen, hfroms⟩ := ih fun w hw => h w (List.mem_cons_of_mem _ hw)
    refine ⟨js :: items, ?_, ?_, fun add collected => ?_⟩
    · rw [toItems, hto, htos]
      rfl
    · rw [List.length_cons, hlen, List.length_cons]
    · rw [fromItems, hfrom]
      show (add collected v).bind _ = (add collected v).bind _
      congr 1
      funext collected
      exact hfroms add collected

theorem returns_vec {k : FieldKind ι} {vs : List Value} (h : ∀ v ∈ vs, Returns R D Γ k v) :
    Returns R D Γ (.vec k) (.list vs) := by
  obtain ⟨items, hto, -, hfrom⟩ := items_return h
  refine ⟨.array items, by rw [toValue, hto]; rfl, ?_, fun hjs => by cases hjs⟩
  rw [fromValue_vec]
  show Except.map _ (fromItems R D Γ pushItem k items []) = _
  rw [hfrom, addAll_pushItem]
  rfl

theorem returns_setOfVec (hbuild : D.Rebuilds) {k : FieldKind ι} {vs : List Value}
    (h : ∀ v ∈ vs, Returns R D Γ k v) (hasc : D.Ascending vs) : Returns R D Γ (.setOfVec k) (.list vs) := by
  obtain ⟨items, hto, -, hfrom⟩ := items_return h
  refine ⟨.array items, by rw [toValue, hto]; rfl, ?_, fun hjs => by cases hjs⟩
  rw [fromValue_setOfVec]
  show Except.map _ ((fromItems R D Γ pushItem k items []).bind D.sort) = _
  rw [hfrom, addAll_pushItem]
  show Except.map _ (D.sort vs) = _
  rw [hbuild.sort vs hasc]
  rfl

theorem returns_sequenceOf (hbuild : D.Rebuilds) {k : FieldKind ι} {len : ℕ} {vs : List Value}
    (h : ∀ v ∈ vs, Returns R D Γ k v) (hfull : vs.length = len) :
    Returns R D Γ (.sequenceOf k len) (.list vs) := by
  obtain ⟨items, hto, hlen, hfrom⟩ := items_return h
  refine ⟨.array items, by rw [toValue, hto]; rfl, ?_, fun hjs => by cases hjs⟩
  rw [fromValue_sequenceOf]
  show (if items.length ≠ len then _ else _) = _
  rw [if_neg (by omega), hfrom, addAll_add hbuild _ _ (by simp [hfull])]
  rfl

theorem returns_setOf (hbuild : D.Rebuilds) {k : FieldKind ι} {len : ℕ} {vs : List Value}
    (h : ∀ v ∈ vs, Returns R D Γ k v) (hasc : D.Ascending vs) (hfull : vs.length = len) :
    Returns R D Γ (.setOf k len) (.list vs) := by
  obtain ⟨items, hto, hlen, hfrom⟩ := items_return h
  refine ⟨.array items, by rw [toValue, hto]; rfl, ?_, fun hjs => by cases hjs⟩
  rw [fromValue_setOf]
  show (if items.length ≠ len then _ else _) = _
  rw [if_neg (by omega), hfrom, addAll_insert hbuild vs [] hasc (by simp [hfull])]
  rfl

/-! ### Fields -/

/-- **A field is stored as the value is written**, but for an absent option. -/
theorem toField_eq {kind : FieldKind ι} {v : Value} (key : String) (object : Js)
    (hne : ∀ inner, kind = .option inner → v ≠ .option none) :
    toField R Γ kind key v object = (toValue R Γ kind v).bind fun js => object.set R key js := by
  conv_rhs => unfold toValue
  unfold toField
  cases kind with
  | leaf k =>
    cases v with
    | leaf v => rfl
    | _ => rfl
  | nested n => rfl
  | option inner =>
    cases v with
    | option v =>
      cases v with
      | none => exact absurd rfl (hne inner rfl)
      | some v => rfl
    | _ => rfl
  | vec inner | setOfVec inner | sequenceOf inner len | setOf inner len =>
    cases v with
    | list vs => cases hitems : toItems R Γ inner vs <;> simp only [hitems] <;> rfl
    | _ => rfl

theorem toField_of_toValue {kind : FieldKind ι} {v : Value} {js object : Js} (key : String)
    (h : toValue R Γ kind v = .ok js) (hne : v ≠ .option none) :
    toField R Γ kind key v object = object.set R key js := by
  rw [toField_eq key object fun _ _ => hne, h]
  rfl

theorem objectField_of_get {object js : Js} {key : String} (h : object.get R key = .ok js)
    (hjs : js.nullish = false) : objectField R object key = .ok js := by
  simp [objectField, h, hjs]

theorem optionalField_of_get {object js : Js} {key : String} (h : object.get R key = .ok js)
    (hjs : js.nullish = false) : optionalField R object key = .ok (some js) := by
  simp [optionalField, h, hjs]

theorem arrayField_of_get {object js : Js} {key : String} (h : object.get R key = .ok js)
    (hjs : js.nullish = false) : arrayField R object key = asArray js := by
  simp [arrayField, objectField_of_get h hjs]

/-- `quote_from` reads a field that is there as `quote_from_value` reads the value. -/
theorem fromField_of_get {kind : FieldKind ι} {key : String} {object js : Js}
    (h : object.get R key = .ok js) (hjs : js.nullish = false) :
    fromField R D Γ kind key object = fromValue R D Γ kind js := by
  have hobject := objectField_of_get h hjs
  have harray := arrayField_of_get h hjs
  cases kind with
  | leaf k =>
    cases k with
    | null =>
      rw [fromField, fromValue, h]
      cases js with
      | null => cases hjs
      | _ => rfl
    | _ =>
      rw [fromField, fromValue, hobject]
      · rfl
      · intro hnull
        cases hnull
  | nested n => rw [fromField_nested, fromValue, hobject]; rfl
  | option inner => rw [fromField_option, fromValue, hjs, optionalField_of_get h hjs]; rfl
  | vec inner => rw [fromField_vec, fromValue_vec, harray]
  | setOfVec inner => rw [fromField_setOfVec, fromValue_setOfVec, harray]
  | sequenceOf inner len => rw [fromField_sequenceOf, fromValue_sequenceOf, harray]
  | setOf inner len => rw [fromField_setOf, fromValue_setOf, harray]

/-- A `Null` field that is there is read. -/
theorem fromField_null {key : String} {object : Js} (h : object.get R key = .ok .null) :
    fromField R D Γ (.leaf .null) key object = .ok (.leaf .null) := by
  rw [fromField, h]
  rfl

/-- An optional field that is not there is read as absent. -/
theorem fromField_absent {inner : FieldKind ι} {key : String} {object : Js}
    (h : object.get R key = .ok .undefined) :
    fromField R D Γ (.option inner) key object = .ok (.option none) := by
  rw [fromField_option, optionalField, h]
  rfl

/-- Only an option can be absent. -/
theorem option_of_toValue {kind : FieldKind ι} {js : Js}
    (h : toValue R Γ kind (.option none) = .ok js) : ∃ inner, kind = .option inner := by
  cases kind with
  | option inner => exact ⟨inner, rfl⟩
  | nested n =>
    rw [toValue, toJs] at h
    · cases h
    all_goals intros; contradiction
  | _ =>
    rw [toValue] at h
    · cases h
    all_goals intros; contradiction

/-- The own properties of an object show a field of a record. -/
def Shows (R : Runtime) (D : Der ι) (Γ : Schema ι) (own : List (String × Js))
    (f : String × FieldKind ι) (v : Value) : Prop :=
  (∃ inner, f.2 = .option inner ∧ v = .option none ∧ own.lookup f.1 = none) ∨
  ∃ js, own.lookup f.1 = some js ∧ fromValue R D Γ f.2 js = .ok v ∧
    (js.nullish = true → f.2 = .leaf .null ∧ js = .null)

/-- `quote_to` shows the field, and touches no other property. -/
theorem shows_toField {f : String × FieldKind ι} {v : Value} {own : List (String × Js)}
    (hkey : f.1 ≠ Js.protoKey) (hfresh : own.lookup f.1 = none) (h : Returns R D Γ f.2 v) :
    ∃ own', toField R Γ f.2 f.1 v (.object none own) = .ok (.object none own') ∧
      (∀ key, key ≠ f.1 → own'.lookup key = own.lookup key) ∧ Shows R D Γ own' f v := by
  obtain ⟨js, hto, hfrom, hjs⟩ := h
  by_cases hnone : v = .option none
  · subst hnone
    obtain ⟨inner, hinner⟩ := option_of_toValue hto
    refine ⟨own, ?_, fun _ _ => rfl, .inl ⟨inner, hinner, rfl, hfresh⟩⟩
    rw [hinner, toField]
  · refine ⟨Js.upsert f.1 js own, ?_, fun key hne => ?_, .inr ⟨js, ?_, hfrom, fun hnull => ?_⟩⟩
    · rw [toField_of_toValue f.1 hto hnone, Js.set_eq js hkey]
    · rw [Js.lookup_upsert, if_neg hne]
    · rw [Js.lookup_upsert, if_pos rfl]
    · exact (hjs hnull).resolve_left hnone

/-- The fields of a record are shown one by one. -/
theorem shows_toFields : ∀ {fields : List (String × FieldKind ι)} {vs : List Value}
    {own : List (String × Js)}, fields.length = vs.length → (fields.map Prod.fst).Nodup →
    (∀ f v, (f, v) ∈ fields.zip vs → f.1 ≠ Js.protoKey) →
    (∀ key ∈ fields.map Prod.fst, own.lookup key = none) →
    (∀ f v, (f, v) ∈ fields.zip vs → Returns R D Γ f.2 v) →
    ∃ own', toFields R Γ fields vs (.object none own) = .ok (.object none own') ∧
      (∀ key, key ∉ fields.map Prod.fst → own'.lookup key = own.lookup key) ∧
      ∀ f v, (f, v) ∈ fields.zip vs → Shows R D Γ own' f v := by
  intro fields
  induction fields with
  | nil =>
    intro vs own hlen _ _ _ _
    obtain rfl : vs = [] := List.length_eq_zero_iff.mp hlen.symm
    exact ⟨own, by rw [toFields], fun _ _ => rfl, fun f v hmem => by cases hmem⟩
  | cons f fields ih =>
    intro vs own hlen hnodup hproto hfresh hreturns
    cases vs with
    | nil => cases hlen
    | cons v vs =>
      rw [List.map_cons, List.nodup_cons] at hnodup
      rw [List.zip_cons_cons] at hproto hreturns
      have hhead := List.mem_cons_self (a := (f, v)) (l := fields.zip vs)
      obtain ⟨own₁, hfield, hkeep, hshows⟩ := shows_toField (hproto f v hhead)
        (hfresh f.1 (List.mem_cons_self ..)) (hreturns f v hhead)
      have hfresh₁ : ∀ key ∈ fields.map Prod.fst, own₁.lookup key = none := by
        intro key hmem
        have hne : key ≠ f.1 := fun heq => hnodup.1 (heq ▸ hmem)
        rw [hkeep key hne, hfresh key (List.mem_cons_of_mem _ hmem)]
      obtain ⟨own', hrest, hkeep', hshows'⟩ := ih (Nat.succ.inj hlen) hnodup.2
        (fun g w hmem => hproto g w (List.mem_cons_of_mem _ hmem)) hfresh₁
        (fun g w hmem => hreturns g w (List.mem_cons_of_mem _ hmem))
      refine ⟨own', ?_, fun key hkey => ?_, fun g w hmem => ?_⟩
      · obtain ⟨key, kind⟩ := f
        rw [toFields, hfield]
        exact hrest
      · rw [List.map_cons, List.mem_cons, not_or] at hkey
        rw [hkeep' key hkey.2, hkeep key hkey.1]
      · rw [List.zip_cons_cons, List.mem_cons] at hmem
        rcases hmem with heq | hmem
        · cases heq
          -- the later fields have other names
          unfold Shows
          rw [hkeep' f.1 hnodup.1]
          exact hshows
        · exact hshows' g w hmem

/-- `quote_from` reads the field an object shows. -/
theorem fromField_of_shows {own : List (String × Js)} {f : String × FieldKind ι} {v : Value}
    (hkey : f.1 ≠ Js.protoKey) (hinherit : v = .option none → f.1 ∉ R.objectMembers)
    (h : Shows R D Γ own f v) : fromField R D Γ f.2 f.1 (.object none own) = .ok v := by
  rcases h with ⟨inner, hinner, hv, hlookup⟩ | ⟨js, hlookup, hfrom, hnull⟩
  · rw [hinner, hv]
    exact fromField_absent (Js.get_of_not_mem hlookup hkey (hinherit hv))
  · have hget : Js.get R (.object none own) f.1 = .ok js := Js.get_of_lookup hlookup
    cases hjs : js.nullish with
    | false => rw [fromField_of_get hget hjs, hfrom]
    | true =>
      obtain ⟨hkind, rfl⟩ := hnull hjs
      rw [hkind] at hfrom ⊢
      rw [fromValue] at hfrom
      rw [fromField_null hget]
      exact hfrom

theorem fromFields_of_zip {object : Js} : ∀ {fields : List (String × FieldKind ι)}
    {vs : List Value}, fields.length = vs.length →
    (∀ f v, (f, v) ∈ fields.zip vs → fromField R D Γ f.2 f.1 object = .ok v) →
    fromFields R D Γ fields object = .ok vs := by
  intro fields
  induction fields with
  | nil =>
    intro vs hlen _
    obtain rfl : vs = [] := List.length_eq_zero_iff.mp hlen.symm
    rw [fromFields]
  | cons f fields ih =>
    intro vs hlen hread
    cases vs with
    | nil => cases hlen
    | cons v vs =>
      rw [List.zip_cons_cons] at hread
      obtain ⟨key, kind⟩ := f
      rw [fromFields, hread (key, kind) v (List.mem_cons_self ..)]
      show Except.map _ (fromFields R D Γ fields object) = _
      rw [ih (Nat.succ.inj hlen) fun g w hmem => hread g w (List.mem_cons_of_mem _ hmem)]
      rfl

/-! ### Types -/

theorem returns_record {n : ι} {fields : List (String × FieldKind ι)}
    {distinct : (fields.map Prod.fst).Nodup} {vs : List Value}
    (hΓ : Γ n = .sequence fields distinct) (hlen : fields.length = vs.length)
    (hproto : ∀ f v, (f, v) ∈ fields.zip vs → f.1 ≠ Js.protoKey)
    (hinherit : ∀ f v, (f, v) ∈ fields.zip vs → v = .option none → f.1 ∉ R.objectMembers)
    (h : ∀ f v, (f, v) ∈ fields.zip vs → Returns R D Γ f.2 v) :
    Returns R D Γ (.nested n) (.record vs) := by
  have hempty : ∀ key ∈ fields.map Prod.fst, ([] : List (String × Js)).lookup key = none :=
    fun _ _ => rfl
  obtain ⟨own, hto, -, hshows⟩ := shows_toFields hlen distinct hproto hempty h
  refine ⟨.object none own, ?_, ?_, fun hnull => by cases hnull⟩
  · rw [toValue]
    unfold toJs
    rw [hΓ]
    exact hto
  · rw [fromValue, fromJs, hΓ]
    show Except.map _ (fromFields R D Γ fields (.object none own)) = _
    rw [fromFields_of_zip hlen fun f v hmem =>
      fromField_of_shows (hproto f v hmem) (hinherit f v hmem) (hshows f v hmem)]
    rfl

theorem returns_enumerated {n : ι} {discriminants : List UInt8} {d : UInt8}
    (hΓ : Γ n = .enumerated discriminants) (hmem : d ∈ discriminants) :
    Returns R D Γ (.nested n) (.enumerated d) := by
  refine ⟨.int d.toNat, ?_, ?_, fun hnull => by cases hnull⟩
  · rw [toValue]
    unfold toJs
    rw [hΓ]
  · rw [fromValue, fromJs, hΓ]
    simp only [asU8_int, if_pos hmem]

theorem returns_variant {n n' : ι} {variants : List (String × ι)}
    {distinct : (variants.map Prod.fst).Nodup} {name : String} {payload : Value}
    (hΓ : Γ n = .choice variants distinct) (hname : variants.lookup name = some n')
    (hproto : name ≠ Js.protoKey) (h : Returns R D Γ (.nested n') payload) :
    Returns R D Γ (.nested n) (.variant name payload) := by
  obtain ⟨js, hto, hfrom, hjs⟩ := h
  have hpresent : js.nullish = false := by
    by_contra hnot
    rw [Bool.not_eq_false] at hnot
    rcases hjs hnot with rfl | ⟨hkind, -⟩
    · obtain ⟨inner, hinner⟩ := option_of_toValue hto
      cases hinner
    · cases hkind
  rw [toValue] at hto
  rw [fromValue] at hfrom
  have hentry : singleEntry R (.object none [(name, js)]) = .ok (name, js) := by
    have hget : Js.get R (.object none [(name, js)]) name = .ok js :=
      Js.get_of_lookup (by rw [Js.lookup_cons_eq, if_pos rfl])
    simp [singleEntry, Js.rooted, hget, hpresent]
  refine ⟨.object none [(name, js)], ?_, ?_, fun hnull => by cases hnull⟩
  · rw [toValue]
    unfold toJs
    rw [hΓ]
    simp only [hname, hto, Except.bind]
    exact Js.set_eq js hproto
  · rw [fromValue, fromJs, hΓ]
    simp only
    split
    · next herr => rw [hentry] at herr; cases herr
    · next hok =>
      rw [hentry] at hok
      cases hok
      simp only [hname, hfrom, Except.map]

/-- What is faithful comes back, at every type. -/
theorem returns_of_faithful (hbuild : D.Rebuilds) {kind : FieldKind ι} {v : Value}
    (h : Typed D Γ kind v) (hfaith : Faithful R Γ kind v) : Returns R D Γ kind v := by
  induction h with
  | leaf hvalid => exact returns_leaf hvalid
  | record hΓ hlen _ ih =>
    cases hfaith with
    | record hΓ' hproto hinherit hfields =>
      cases hΓ.symm.trans hΓ'
      exact returns_record hΓ hlen hproto hinherit fun f v hmem => ih f v hmem (hfields f v hmem)
  | enumerated hΓ hmem => exact returns_enumerated hΓ hmem
  | variant hΓ hname _ ih =>
    cases hfaith with
    | variant hΓ' hname' hproto hpayload =>
      cases hΓ.symm.trans hΓ'
      cases hname.symm.trans hname'
      exact returns_variant hΓ hname hproto (ih hpayload)
  | none => exact returns_none
  | some _ ih =>
    cases hfaith with
    | some hnull hv => exact returns_some hnull (ih hv)
  | vec _ ih =>
    cases hfaith with
    | vec hvs => exact returns_vec fun v hv => ih v hv (hvs v hv)
  | setOfVec _ hasc ih =>
    cases hfaith with
    | setOfVec hvs => exact returns_setOfVec hbuild (fun v hv => ih v hv (hvs v hv)) hasc
  | sequenceOf _ _ ih =>
    cases hfaith with
    | sequenceOf hvs hfull => exact returns_sequenceOf hbuild (fun v hv => ih v hv (hvs v hv)) hfull
  | setOf _ hasc _ ih =>
    cases hfaith with
    | setOf hvs hfull => exact returns_setOf hbuild (fun v hv => ih v hv (hvs v hv)) hasc hfull

/-- **What is faithful comes back.**  The collections of the codec library rebuild what they
held, and it decodes values of the type and encodes what it decoded to the octets it came from.
Then every faithful value of a type comes back from
JavaScript, and the exported functions give back the octets of every faithful value. -/
theorem codec_round_trip (hbuild : D.Rebuilds)
    (hder : ∀ n bytes v, D.decode n bytes = .ok v →
      Typed D Γ (.nested n) v ∧ D.encode n v = .ok bytes) :
    (∀ n v, Typed D Γ (.nested n) v → Faithful R Γ (.nested n) v →
      ∃ js, toJs R Γ n v = .ok js ∧ fromJs R D Γ n js = .ok v) ∧
    ∀ n bytes v, D.decode n bytes = .ok v → Faithful R Γ (.nested n) v →
      ∃ js, decodeExport R D Γ n bytes = .ok js ∧ encodeExport R D Γ n js = .ok bytes := by
  have hvalue : ∀ n v, Typed D Γ (.nested n) v → Faithful R Γ (.nested n) v →
      ∃ js, toJs R Γ n v = .ok js ∧ fromJs R D Γ n js = .ok v := by
    intro n v htyped hfaith
    obtain ⟨js, hto, hfrom, -⟩ := returns_of_faithful hbuild htyped hfaith
    rw [toValue] at hto
    rw [fromValue] at hfrom
    exact ⟨js, hto, hfrom⟩
  refine ⟨hvalue, fun n bytes v hdecode hfaith => ?_⟩
  obtain ⟨htyped, hencode⟩ := hder n bytes v hdecode
  obtain ⟨js, hto, hfrom⟩ := hvalue n v htyped hfaith
  refine ⟨js, ?_, ?_⟩
  · rw [decodeExport, hdecode]
    exact hto
  · rw [encodeExport, hfrom]
    exact hencode

/-! ### Values JavaScript confuses -/

/-- Four structs of one field. -/
inductive Sample
  /-- `flags: SequenceOf<bool, 2>`. -/
  | capped
  /-- `marker: Option<Null>`. -/
  | marked
  /-- `constructor: Option<u8>`. -/
  | inherited
  /-- `__proto__: bool`. -/
  | proto

namespace Sample

/-- The one field. -/
def field : Sample → String × FieldKind Sample
  | .capped => ("flags", .sequenceOf (.leaf .bool) 2)
  | .marked => ("marker", .option (.leaf .null))
  | .inherited => ("constructor", .option (.leaf (.int .u8)))
  | .proto => ("__proto__", .leaf .bool)

/-- The structs as a schema. -/
def schema : Schema Sample := fun n => .sequence [n.field] (by simp)

/-- A runtime that has what the language standard gives every object. -/
def runtime : Runtime where
  objectMembers := objectPrototype
  member _ key := if key ∈ objectPrototype then .builtin else .absent
  writable js key :=
    match js with
    | .bytes _ => decide (key ∉ ["length", "byteLength", "byteOffset", "buffer"])
    | .builtin => decide (key ∉ ["length", "name"])
    | _ => true

/-- The octets and the field of some values. -/
def octets : Sample → List (Octets × Value)
  | .capped => [([0x30, 5, 0x30, 3, 1, 1, 0xFF], .list [.leaf (.bool true)]),
      ([0x30, 8, 0x30, 6, 1, 1, 0xFF, 1, 1, 0], .list [.leaf (.bool true), .leaf (.bool false)])]
  | .marked => [([0x30, 0], .option none), ([0x30, 2, 5, 0], .option (some (.leaf .null)))]
  | .inherited => [([0x30, 0], .option none)]
  | .proto => [([0x30, 3, 1, 1, 0xFF], .leaf (.bool true))]

/-- The codec library on these octets. -/
def der : Der Sample where
  text _ s := .ok s
  octetString octets := .ok octets
  bitString unusedBits bytes := .ok (unusedBits, bytes)
  any der := .ok der
  cmp _ _ := .eq
  add len items v := if items.length < len then .ok (items ++ [v]) else .error .overlength
  insert len items v :=
    if items.length < len then
      match items with
      | [] => .ok [v]
      | _ :: _ => .error .setDuplicate
    else .error .overlength
  sort
    | _ :: _ :: _ => .error .setDuplicate
    | items => .ok items
  decode n bytes :=
    match n.octets.lookup bytes with
    | some v => .ok (.record [v])
    | none => .error .failed
  encode n v :=
    match n, v with
    | .capped, .record [.list [.leaf (.bool true)]] => .ok [0x30, 5, 0x30, 3, 1, 1, 0xFF]
    | .capped, .record [.list [.leaf (.bool true), .leaf (.bool false)]] =>
        .ok [0x30, 8, 0x30, 6, 1, 1, 0xFF, 1, 1, 0]
    | .marked, .record [.option none] => .ok [0x30, 0]
    | .marked, .record [.option (some (.leaf .null))] => .ok [0x30, 2, 5, 0]
    | .inherited, .record [.option none] => .ok [0x30, 0]
    | .proto, .record [.leaf (.bool true)] => .ok [0x30, 3, 1, 1, 0xFF]
    | _, _ => .error .failed

/-- Where all values compare equal, what is ascending has at most one. -/
theorem der_rebuilds : der.Rebuilds where
  add len items v hlen := if_pos hlen
  insert len items v hlen hasc := by
    cases items with
    | nil =>
      show (if _ then _ else _) = _
      rw [if_pos hlen]
      rfl
    | cons x items =>
      -- the first two would have to be apart
      cases items with
      | nil => cases (List.isChain_cons_cons.mp hasc).1
      | cons y items => cases (List.isChain_cons_cons.mp hasc).1
  sort items hasc := by
    cases items with
    | nil => rfl
    | cons x items =>
      cases items with
      | nil => rfl
      | cons y items => cases (List.isChain_cons_cons.mp hasc).1

theorem typed_record {n : Sample} {v : Value} (h : Typed der schema n.field.2 v) :
    Typed der schema (.nested n) (.record [v]) := by
  have hschema : schema n = .sequence [n.field] (by simp) := rfl
  refine .record hschema rfl fun f w hmem => ?_
  cases List.mem_singleton.mp hmem
  exact h

theorem mem_of_decode {n : Sample} {bytes : Octets} {v : Value}
    (h : der.decode n bytes = .ok v) : ∃ w, v = .record [w] ∧ (bytes, w) ∈ n.octets := by
  simp only [der] at h
  split at h
  · next w hw =>
    cases h
    obtain ⟨l₁, l₂, hsplit, -⟩ := List.lookup_eq_some_iff.mp hw
    exact ⟨w, rfl, hsplit ▸ List.mem_append_right _ (List.mem_cons_self ..)⟩
  · cases h

theorem der_inverse (n : Sample) (bytes : Octets) (v : Value) (h : der.decode n bytes = .ok v) :
    Typed der schema (.nested n) v ∧ der.encode n v = .ok bytes := by
  obtain ⟨w, rfl, hmem⟩ := mem_of_decode h
  have hbool : ∀ b, Typed der schema (.leaf .bool) (.leaf (.bool b)) := fun _ => .leaf trivial
  cases n with
  | capped =>
    rcases List.mem_pair.mp hmem with hpair | hpair
    all_goals
      cases hpair
      refine ⟨typed_record (.sequenceOf ?_ (by decide)), rfl⟩
      simp [hbool]
  | marked =>
    rcases List.mem_pair.mp hmem with hpair | hpair
    · cases hpair
      exact ⟨typed_record .none, rfl⟩
    · cases hpair
      exact ⟨typed_record (.some (.leaf trivial)), rfl⟩
  | inherited =>
    cases List.mem_singleton.mp hmem
    exact ⟨typed_record .none, rfl⟩
  | proto =>
    cases List.mem_singleton.mp hmem
    exact ⟨typed_record (hbool true), rfl⟩

/-- `decode{Name}`, then `encode{Name}`. -/
def again (n : Sample) (bytes : Octets) : Except DerError Octets :=
  (decodeExport runtime der schema n bytes).bind (encodeExport runtime der schema n)

theorem again_eq {n : Sample} {bytes : Octets} (v : Value) (object : Js)
    (hdecode : der.decode n bytes = .ok (.record [v]))
    (hto : toField runtime schema n.field.2 n.field.1 v .empty = .ok object) :
    again n bytes = ((fromField runtime der schema n.field.2 n.field.1 object).map
      fun w => .record [w]).bind (der.encode n) := by
  have hjs : toJs runtime schema n (.record [v]) = .ok object := by
    unfold toJs
    show toFields runtime schema [(n.field.1, n.field.2)] [v] .empty = _
    rw [toFields, hto]
    show toFields runtime schema [] [] object = _
    rw [toFields]
  rw [again, decodeExport, hdecode]
  show (toJs runtime schema n (.record [v])).bind _ = _
  rw [hjs]
  show (fromJs runtime der schema n object).bind _ = _
  rw [fromJs]
  show ((fromFields runtime der schema [(n.field.1, n.field.2)] object).map _).bind _ = _
  simp only [fromFields]
  cases fromField runtime der schema n.field.2 n.field.1 object with
  | error e => rfl
  | ok w => rfl

end Sample

/-- A `SequenceOf` with room for two that holds two comes back. -/
theorem full_sequence_returns : ∃ js,
    decodeExport Sample.runtime Sample.der Sample.schema .capped
      [0x30, 8, 0x30, 6, 1, 1, 0xFF, 1, 1, 0] = .ok js ∧
    encodeExport Sample.runtime Sample.der Sample.schema .capped js =
      .ok [0x30, 8, 0x30, 6, 1, 1, 0xFF, 1, 1, 0] := by
  refine (codec_round_trip Sample.der_rebuilds Sample.der_inverse).2 .capped _ _ rfl ?_
  have hschema : Sample.schema .capped =
      .sequence [Sample.field .capped] (by simp) := rfl
  refine .record hschema ?_ ?_ ?_
  all_goals
    intro f v hmem
    cases List.mem_singleton.mp hmem
  · decide
  · intro hnone
    cases hnone
  · exact .sequenceOf (fun v hv => by
      rcases List.mem_pair.mp hv with rfl | rfl
      · exact .leaf
      · exact .leaf) rfl

/-- **Each clause of faithfulness is needed.**  The codec library decodes all four, and encodes
what it decoded as it was.  Through JavaScript a `SequenceOf` that is not full is refused, a
present `Null` becomes absent, an absent field called `constructor` is found in the prototype,
and a field called `__proto__` is lost. -/
theorem unfaithful_values_change :
    Sample.der.Rebuilds ∧ (∀ n bytes v, Sample.der.decode n bytes = .ok v →
      Typed Sample.der Sample.schema (.nested n) v ∧ Sample.der.encode n v = .ok bytes) ∧
    (Sample.der.decode .capped [0x30, 5, 0x30, 3, 1, 1, 0xFF] =
        .ok (.record [.list [.leaf (.bool true)]]) ∧
      Sample.again .capped [0x30, 5, 0x30, 3, 1, 1, 0xFF] = .error .failed) ∧
    (Sample.der.decode .marked [0x30, 2, 5, 0] = .ok (.record [.option (some (.leaf .null))]) ∧
      Sample.again .marked [0x30, 2, 5, 0] = .ok [0x30, 0]) ∧
    (Sample.der.decode .inherited [0x30, 0] = .ok (.record [.option none]) ∧
      Sample.again .inherited [0x30, 0] = .error .failed) ∧
    Sample.der.decode .proto [0x30, 3, 1, 1, 0xFF] = .ok (.record [.leaf (.bool true)]) ∧
      Sample.again .proto [0x30, 3, 1, 1, 0xFF] = .error .failed := by
  refine ⟨Sample.der_rebuilds, Sample.der_inverse, ⟨rfl, ?_⟩, ⟨rfl, ?_⟩, ⟨rfl, ?_⟩, rfl, ?_⟩
  · rw [Sample.again_eq (.list [.leaf (.bool true)])
      (.object none [("flags", .array [.bool true])]) rfl]
    · simp only [Sample.field, fromField_sequenceOf]
      rfl
    · simp only [Sample.field, toField, toItems, toValue]
      rfl
  · rw [Sample.again_eq (.option (some (.leaf .null))) (.object none [("marker", .null)]) rfl]
    · simp only [Sample.field, fromField_option]
      rfl
    · simp only [Sample.field, toField, toValue]
      rfl
  · rw [Sample.again_eq (.option none) .empty rfl]
    · simp only [Sample.field, fromField_option, fromValue]
      rfl
    · simp only [Sample.field, toField]
  · rw [Sample.again_eq (.leaf (.bool true)) .empty rfl]
    · simp only [Sample.field, fromField]
      rfl
    · simp only [Sample.field, toField]
      rfl

end Asn
end TightbeamExt
