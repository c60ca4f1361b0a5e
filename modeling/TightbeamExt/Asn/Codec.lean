import TightbeamExt.Asn.Js

/-!
# The generated codecs

`derive(AsnCodec)` writes two conversions for a wire type, `from_js` and `to_js`, out of two
generators per direction: `quote_from` and `quote_to` for a named field, `quote_from_value` and
`quote_to_value` for a value inside a container.  Here the generators are run: a schema says
what each type is, and the code a type would get is a function of the schema.

Types refer to each other by name, so a type may contain itself under a `Vec`.  The conversions
are therefore recursive on the value, not on the type.

## Main definitions

* `FieldKind`, `AsnType`, `Schema` — what the derive accepts.
* `Value` — a value of a wire type.
* `toJs`, `toField`, `toValue` — the generated `to_js`.
* `fromJs`, `fromField`, `fromValue` — the generated `from_js`.
* `Der` — the codec library: its constructors, its collections, the order of a `SET OF`,
  decoding and encoding.
* `encodeExport`, `decodeExport` — the exported `encode{Name}` and `decode{Name}`.
-/

namespace TightbeamExt
namespace Asn

/-! ### Types -/

/-- The type of a field. -/
inductive FieldKind (ι : Type*)
  /-- A leaf. -/
  | leaf (k : LeafKind)
  /-- Another wire type. -/
  | nested (n : ι)
  /-- `Option<T>`. -/
  | option (inner : FieldKind ι)
  /-- `Vec<T>`. -/
  | vec (inner : FieldKind ι)
  /-- `SetOfVec<T>`. -/
  | setOfVec (inner : FieldKind ι)
  /-- `SequenceOf<T, N>`. -/
  | sequenceOf (inner : FieldKind ι) (len : ℕ)
  /-- `SetOf<T, N>`. -/
  | setOf (inner : FieldKind ι) (len : ℕ)

/-- A wire type. -/
inductive AsnType (ι : Type*)
  /-- A struct with named fields. -/
  | sequence (fields : List (String × FieldKind ι)) (distinct : (fields.map Prod.fst).Nodup)
  /-- A `repr(u8)` enum, by its discriminants. -/
  | enumerated (discriminants : List UInt8)
  /-- An enum of tagged payloads. -/
  | choice (variants : List (String × ι)) (distinct : (variants.map Prod.fst).Nodup)

/-- The wire types by name. -/
abbrev Schema (ι : Type*) := ι → AsnType ι

/-- A value of a wire type or of a field. -/
inductive Value
  /-- Of a leaf. -/
  | leaf (v : Leaf)
  /-- Of an `Option`. -/
  | option (v : Option Value)
  /-- Of a `Vec`, `SetOfVec`, `SequenceOf` or `SetOf`. -/
  | list (items : List Value)
  /-- Of a struct, field by field. -/
  | record (fields : List Value)
  /-- Of a `repr(u8)` enum. -/
  | enumerated (discriminant : UInt8)
  /-- Of a tagged enum. -/
  | variant (name : String) (payload : Value)

/-- The codec library. -/
structure Der (ι : Type*) extends Constructors where
  /-- `DerOrd::der_cmp`. -/
  cmp : Value → Value → Ordering
  /-- `SequenceOf::add`, at a capacity. -/
  add : ℕ → List Value → Value → Except DerError (List Value)
  /-- `SetOf::insert`, at a capacity. -/
  insert : ℕ → List Value → Value → Except DerError (List Value)
  /-- `SetOfVec::try_from` of a `Vec`. -/
  sort : List Value → Except DerError (List Value)
  /-- `Decode::from_der`. -/
  decode : ι → Octets → Except DerError Value
  /-- `Encode::to_der`. -/
  encode : ι → Value → Except DerError Octets

variable {ι : Type*}

/-- `Vec::push`. -/
def pushItem (items : List Value) (v : Value) : Except DerError (List Value) := .ok (items ++ [v])

/-! ### To JavaScript -/

section ToJs

variable (R : Runtime) (Γ : Schema ι)

mutual

/-- The generated `to_js`. -/
def toJs (n : ι) (v : Value) : Except DerError Js :=
  match Γ n, v with
  | .sequence fields _, .record vs => toFields fields vs .empty
  | .enumerated _, .enumerated d => .ok (.int d.toNat)
  | .choice variants _, .variant name payload =>
      match variants.lookup name with
      | some n' => (toJs n' payload).bind fun nested => Js.empty.set R name nested
      | none => .error .failed
  -- the schema is the type of the value
  | _, _ => .error .failed
termination_by (sizeOf v, 1)

/-- The `to_fields` of a struct, one after the other. -/
def toFields (fields : List (String × FieldKind ι)) (vs : List Value) (object : Js) :
    Except DerError Js :=
  match fields, vs with
  | (key, kind) :: fields, v :: vs => (toField kind key v object).bind fun object =>
      toFields fields vs object
  | [], [] => .ok object
  | _, _ => .error .failed
termination_by (sizeOf vs, 0)

/-- `quote_to`: an absent optional field is left out. -/
def toField (kind : FieldKind ι) (key : String) (v : Value) (object : Js) : Except DerError Js :=
  match kind, v with
  | .leaf k, .leaf v => (project R k v).bind fun js => object.set R key js
  | .nested n, v => (toJs n v).bind fun nested => object.set R key nested
  | .option inner, .option (some v) => (toValue inner v).bind fun nested => object.set R key nested
  | .option _, .option none => .ok object
  | .vec inner, .list vs => (toItems inner vs).bind fun items => object.set R key (.array items)
  | .setOfVec inner, .list vs =>
      (toItems inner vs).bind fun items => object.set R key (.array items)
  | .sequenceOf inner _, .list vs =>
      (toItems inner vs).bind fun items => object.set R key (.array items)
  | .setOf inner _, .list vs =>
      (toItems inner vs).bind fun items => object.set R key (.array items)
  | _, _ => .error .failed
termination_by (sizeOf v, 2)

/-- `quote_to_value`: an absent optional value is `null`. -/
def toValue (kind : FieldKind ι) (v : Value) : Except DerError Js :=
  match kind, v with
  | .leaf k, .leaf v => project R k v
  | .nested n, v => toJs n v
  | .option inner, .option (some v) => toValue inner v
  | .option _, .option none => .ok .null
  | .vec inner, .list vs => (toItems inner vs).map .array
  | .setOfVec inner, .list vs => (toItems inner vs).map .array
  | .sequenceOf inner _, .list vs => (toItems inner vs).map .array
  | .setOf inner _, .list vs => (toItems inner vs).map .array
  | _, _ => .error .failed
termination_by (sizeOf v, 2)

/-- The loop that pushes the items of a container. -/
def toItems (inner : FieldKind ι) (vs : List Value) : Except DerError (List Js) :=
  match vs with
  | [] => .ok []
  | v :: vs => (toValue inner v).bind fun nested => (toItems inner vs).map (nested :: ·)
termination_by (sizeOf vs, 0)

end

end ToJs

/-! ### From JavaScript -/

section FromJs

variable (R : Runtime) (D : Der ι) (Γ : Schema ι)

theorem sizeAll_arrayField_lt {value : Js} {items : List Js} {name : String}
    (h : arrayField R value name = .ok items) : Js.sizeAll items < value.size := by
  unfold arrayField at h
  split at h
  · cases h
  · next hfield => exact (sizeAll_asArray_lt h).trans (size_objectField_lt R hfield)

theorem sizeAll_asArrayLen_lt {value : Js} {items : List Js} {len : ℕ}
    (h : asArrayLen value len = .ok items) : Js.sizeAll items < value.size := by
  unfold asArrayLen at h
  split at h
  · cases h
  · next harray =>
    split at h
    · cases h
    · cases h; exact sizeAll_asArray_lt harray

mutual

/-- The generated `from_js`. -/
def fromJs (n : ι) (value : Js) : Except DerError Value :=
  match Γ n with
  | .sequence fields _ => (fromFields fields value).map .record
  | .enumerated discriminants =>
      match asU8 value with
      | .error e => .error e
      | .ok d => if d ∈ discriminants then .ok (.enumerated d) else .error .failed
  | .choice variants _ =>
      match h : singleEntry R value with
      | .error e => .error e
      | .ok (key, entry) =>
          match variants.lookup key with
          | none => .error .failed
          | some n' =>
              have := size_singleEntry_lt R h
              (fromJs n' entry).map (.variant key)
termination_by (value.size, 1, 0)

/-- The `from_fields` of a struct, one after the other. -/
def fromFields (fields : List (String × FieldKind ι)) (value : Js) : Except DerError (List Value) :=
  match fields with
  | [] => .ok []
  | (key, kind) :: fields =>
      (fromField kind key value).bind fun v => (fromFields fields value).map (v :: ·)
termination_by (value.size, 0, fields.length + 1)

/-- `quote_from`. -/
def fromField (kind : FieldKind ι) (key : String) (value : Js) : Except DerError Value :=
  match kind with
  | .leaf .null => ((value.get R key).bind asNull).map fun _ => .leaf .null
  | .leaf k => ((objectField R value key).bind (interpret R D.toConstructors k)).map .leaf
  | .nested n =>
      match h : objectField R value key with
      | .error e => .error e
      | .ok nested =>
          have := size_objectField_lt R h
          fromJs n nested
  | .option inner =>
      match h : optionalField R value key with
      | .error e => .error e
      | .ok none => .ok (.option none)
      | .ok (some present) =>
          have := size_optionalField_lt R h
          (fromValue inner present).map fun v => .option (some v)
  | .vec inner =>
      match h : arrayField R value key with
      | .error e => .error e
      | .ok items =>
          have := sizeAll_arrayField_lt R h
          (fromItems pushItem inner items []).map .list
  | .setOfVec inner =>
      match h : arrayField R value key with
      | .error e => .error e
      | .ok items =>
          have := sizeAll_arrayField_lt R h
          ((fromItems pushItem inner items []).bind D.sort).map .list
  | .sequenceOf inner len =>
      match h : arrayField R value key with
      | .error e => .error e
      | .ok items =>
          have := sizeAll_arrayField_lt R h
          if items.length ≠ len then .error .failed
          else (fromItems (D.add len) inner items []).map .list
  | .setOf inner len =>
      match h : arrayField R value key with
      | .error e => .error e
      | .ok items =>
          have := sizeAll_arrayField_lt R h
          if items.length ≠ len then .error .failed
          else (fromItems (D.insert len) inner items []).map .list
termination_by (value.size, 0, 0)

/-- `quote_from_value`. -/
def fromValue (kind : FieldKind ι) (value : Js) : Except DerError Value :=
  match kind with
  | .leaf k => (interpret R D.toConstructors k value).map .leaf
  | .nested n => fromJs n value
  | .option inner =>
      if value.nullish then .ok (.option none)
      else (fromValue inner value).map fun v => .option (some v)
  | .vec inner =>
      match h : asArray value with
      | .error e => .error e
      | .ok items =>
          have := sizeAll_asArray_lt h
          (fromItems pushItem inner items []).map .list
  | .setOfVec inner =>
      match h : asArray value with
      | .error e => .error e
      | .ok items =>
          have := sizeAll_asArray_lt h
          ((fromItems pushItem inner items []).bind D.sort).map .list
  | .sequenceOf inner len =>
      match h : asArrayLen value len with
      | .error e => .error e
      | .ok items =>
          have := sizeAll_asArrayLen_lt h
          if items.length ≠ len then .error .failed
          else (fromItems (D.add len) inner items []).map .list
  | .setOf inner len =>
      match h : asArrayLen value len with
      | .error e => .error e
      | .ok items =>
          have := sizeAll_asArrayLen_lt h
          if items.length ≠ len then .error .failed
          else (fromItems (D.insert len) inner items []).map .list
termination_by (value.size, 2, sizeOf kind)

/-- The loop that reads the items of an array and adds each to a collection. -/
def fromItems (add : List Value → Value → Except DerError (List Value)) (inner : FieldKind ι)
    (items : List Js) (collected : List Value) : Except DerError (List Value) :=
  match items with
  | [] => .ok collected
  | entry :: items =>
      have := Js.size_lt_sizeAll entry items
      have := Js.sizeAll_lt_sizeAll entry items
      (fromValue inner entry).bind fun v =>
        (add collected v).bind fun collected => fromItems add inner items collected
termination_by (Js.sizeAll items, 3, 0)

end

/-- `encode{Name}`. -/
def encodeExport (n : ι) (value : Js) : Except DerError Octets :=
  (fromJs R D Γ n value).bind (D.encode n)

/-- `decode{Name}`. -/
def decodeExport (n : ι) (bytes : Octets) : Except DerError Js :=
  (D.decode n bytes).bind (toJs R Γ n)

end FromJs
end Asn
end TightbeamExt
