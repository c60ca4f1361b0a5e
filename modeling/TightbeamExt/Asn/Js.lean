import Mathlib.Data.Rat.Defs
import Mathlib.Tactic.Linarith
import TightbeamExt.Base.Text

/-!
# JavaScript values and the helpers on them

What the generated codecs see of JavaScript: values, `Reflect.get` and `Reflect.set` with the
members every object inherits, and the `js.rs` helpers that read a value as a field of a wire
type or write one.

An object carries its own properties in insertion order and its prototype, which is
`Object.prototype` unless it was replaced through `__proto__`.  What arrays, typed arrays and
the runtime's own objects have under a name is the runtime's affair.

## Main definitions

* `Js` — a value; `Js.get`, `Js.set` — `Reflect.get` and `Reflect.set`.
* `LeafKind`, `Leaf` — the leaf field types and their values.
* `project`, `interpret` — the `from_x` and `as_x` helper of a leaf type.

## Main results

* `size_get_lt` — what is read off an object is smaller than it.
* `interpret_project` — **the helper pairs of `js.rs` are inverse on the values of the codec
  library.**
-/

namespace TightbeamExt
namespace Asn

open Text

/-- Raw octets. -/
abbrev Octets := List UInt8

/-- What the codec library and the helpers fail with. -/
inductive DerError
  /-- `ErrorKind::Failed`. -/
  | failed
  /-- `ErrorKind::SetDuplicate`. -/
  | setDuplicate
  /-- `ErrorKind::Overlength`. -/
  | overlength
  /-- Any other kind. -/
  | other (code : ℕ)
  deriving DecidableEq, Repr

/-! ### Values -/

/-- A JavaScript number. -/
inductive JsNumber
  /-- A finite one. -/
  | finite (q : ℚ)
  /-- An infinity or NaN. -/
  | notFinite
  deriving DecidableEq

/-- A JavaScript value. -/
inductive Js
  /-- `undefined`. -/
  | undefined
  /-- `null`. -/
  | null
  /-- A boolean. -/
  | bool (b : Bool)
  /-- A number. -/
  | number (x : JsNumber)
  /-- A bigint. -/
  | bigint (n : ℤ)
  /-- A string of code units. -/
  | string (units : List UInt16)
  /-- A `Uint8Array`. -/
  | bytes (octets : Octets)
  /-- An `Array`. -/
  | array (items : List Js)
  /-- A plain object; without `proto` its prototype is `Object.prototype`. -/
  | object (proto : Option Js) (fields : List (String × Js))
  /-- `Object.prototype`, or a function of the runtime. -/
  | builtin

/-- What an object of the runtime has under a name. -/
inductive Member
  /-- Nothing. -/
  | absent
  /-- A number, such as a length. -/
  | number (x : JsNumber)
  /-- A string, such as the name of a function. -/
  | string (units : List UInt16)
  /-- A function or another object. -/
  | builtin
  deriving DecidableEq

/-- What the runtime provides. -/
structure Runtime where
  /-- The members of `Object.prototype`, `__proto__` apart. -/
  objectMembers : List String
  /-- The members of arrays, typed arrays and functions. -/
  member : Js → String → Member
  /-- Their members are no obstacle to a set on an object behind them: there is none of this
  name, or it is a data property that may be written. -/
  writable : Js → String → Bool

/-- The members the language standard gives `Object.prototype`. -/
def objectPrototype : List String :=
  ["constructor", "hasOwnProperty", "isPrototypeOf", "propertyIsEnumerable", "toLocaleString",
    "toString", "valueOf", "__defineGetter__", "__defineSetter__", "__lookupGetter__",
    "__lookupSetter__"]

namespace Js

/-- A JavaScript number that is an integer. -/
def int (n : ℤ) : Js := .number (.finite n)

/-- A text as a string. -/
def text (s : List Char) : Js := .string (utf16 s)

/-- `is_undefined() || is_null()`. -/
def nullish : Js → Bool
  | .undefined => true
  | .null => true
  | _ => false

/-- It has properties. -/
def isObject : Js → Bool
  | .bytes _ => true
  | .array _ => true
  | .object _ _ => true
  | .builtin => true
  | _ => false

/-- `js::object`. -/
def empty : Js := .object none []

variable (R : Runtime)

/-- What an object of the runtime has under a name, as a value. -/
def hostMember (js : Js) (key : String) : Option Js :=
  match R.member js key with
  | .absent => none
  | .number x => some (.number x)
  | .string units => some (.string units)
  | .builtin =>
      match js with
      | .builtin => none
      | _ => some .builtin

/-- The data property under a name, along the prototype chain. -/
def find : Js → String → Option Js
  | .object none fields, key =>
      match fields.lookup key with
      | some v => some v
      | none => if key ∈ R.objectMembers then some .builtin else none
  | .object (some proto) fields, key =>
      match fields.lookup key with
      | some v => some v
      | none => find proto key
  | .bytes octets, key => hostMember R (.bytes octets) key
  | .array items, key => hostMember R (.array items) key
  | .builtin, key => hostMember R .builtin key
  | _, _ => none

/-- The prototype chain ends in `Object.prototype`. -/
def rooted : Js → Bool
  | .object none _ => true
  | .object (some proto) _ => rooted proto
  | js => js.isObject

/-- `Object.getPrototypeOf`. -/
def prototype : Js → Js
  | .object (some proto) _ => proto
  | _ => .builtin

/-- The name of the accessor of the prototype. -/
def protoKey : String := "__proto__"

/-- `Reflect.get`; a primitive throws. -/
def get (js : Js) (key : String) : Except DerError Js :=
  if js.isObject then
    match find R js key with
    | some v => .ok v
    | none =>
        match js with
        | .object _ _ => if key = protoKey ∧ js.rooted then .ok js.prototype else .ok .undefined
        | _ => .ok .undefined
  else .error .failed

/-- Set an own property. -/
def upsert (key : String) (v : Js) : List (String × Js) → List (String × Js)
  | [] => [(key, v)]
  | (key', v') :: rest => if key = key' then (key, v) :: rest else (key', v') :: upsert key v rest

/-- A set of this name is not refused: the first of the object and its prototypes that has the
name has it as a data property that may be written.  All of `Object.prototype` may. -/
def settable : Js → String → Bool
  | .object none _, _ => true
  | .object (some proto) fields, key => (fields.lookup key).isSome || settable proto key
  | .null, _ => true
  | js, key => R.writable js key

/-- `Reflect.set` on a plain object.  Through `__proto__` an object or `null` becomes the
prototype, and anything else is ignored.  A refused set gives `false`, which no caller reads. -/
def set (js : Js) (key : String) (v : Js) : Except DerError Js :=
  match js with
  | .object proto fields =>
      if key = protoKey ∧ (find R js key).isNone ∧ js.rooted then
        match v with
        | .null => .ok (.object (some v) fields)
        | _ => if v.isObject then .ok (.object (some v) fields) else .ok js
      else if settable R js key then .ok (.object proto (upsert key v fields))
      else .ok js
  | _ => .error .failed

/-! ### Size -/

mutual

/-- The size of a value. -/
def size : Js → ℕ
  | .bytes _ => 2
  | .array items => 2 + sizeAll items
  | .object none fields => 2 + sizeFields fields
  | .object (some proto) fields => 3 + size proto + sizeFields fields
  | .builtin => 1
  | _ => 0

/-- The size of the items of an array. -/
def sizeAll : List Js → ℕ
  | [] => 0
  | x :: xs => 1 + size x + sizeAll xs

/-- The size of the properties of an object. -/
def sizeFields : List (String × Js) → ℕ
  | [] => 0
  | (_, x) :: rest => 1 + size x + sizeFields rest

end

theorem size_lt_of_lookup {key : String} {v : Js} : ∀ {fields : List (String × Js)},
    fields.lookup key = some v → v.size < sizeFields fields := by
  intro fields
  induction fields with
  | nil => intro h; cases h
  | cons f rest ih =>
    intro h
    obtain ⟨key', x⟩ := f
    rw [List.lookup_cons] at h
    simp only [sizeFields]
    split at h
    · cases h
      omega
    · have := ih h
      omega

theorem size_lt_sizeAll (x : Js) (xs : List Js) : x.size < sizeAll (x :: xs) := by
  simp only [sizeAll]
  omega

theorem sizeAll_lt_sizeAll (x : Js) (xs : List Js) : sizeAll xs < sizeAll (x :: xs) := by
  simp only [sizeAll]
  omega

theorem size_pos {js : Js} (h : js.isObject = true) : 0 < js.size := by
  cases js with
  | bytes octets => simp [size]
  | array items => simp [size]
  | object proto fields =>
    cases proto with
    | none => simp [size]
    | some proto => simp [size]
  | builtin => simp [size]
  | _ => cases h

theorem one_lt_size {js : Js} (h : js.isObject = true) (hne : js ≠ .builtin) : 1 < js.size := by
  cases js with
  | bytes octets => simp [size]
  | array items => simp only [size]; omega
  | object proto fields =>
    cases proto with
    | none => simp only [size]; omega
    | some proto => simp only [size]; omega
  | builtin => exact absurd rfl hne
  | _ => cases h

variable {R : Runtime}

theorem size_hostMember_lt {js v : Js} {key : String} (hjs : js.isObject = true)
    (h : hostMember R js key = some v) : v.size < js.size := by
  unfold hostMember at h
  split at h
  · cases h
  · cases h; exact size_pos hjs
  · cases h; exact size_pos hjs
  · split at h
    · cases h
    · next hne => cases h; exact one_lt_size hjs hne

/-- What an object has is smaller than it. -/
theorem size_find_lt {key : String} {v : Js} : ∀ {js : Js}, find R js key = some v →
    v.size < js.size
  | .object none fields, h => by
    simp only [find] at h
    simp only [size]
    split at h
    · next x hx =>
      cases h
      have := size_lt_of_lookup hx
      omega
    · split at h
      · cases h
        simp only [size]
        omega
      · cases h
  | .object (some proto) fields, h => by
    simp only [find] at h
    simp only [size]
    split at h
    · next x hx =>
      cases h
      have := size_lt_of_lookup hx
      omega
    · have := size_find_lt h
      omega
  | .bytes _, h => size_hostMember_lt rfl h
  | .array _, h => size_hostMember_lt rfl h
  | .builtin, h => size_hostMember_lt rfl h
  | .undefined, h => by cases h
  | .null, h => by cases h
  | .bool _, h => by cases h
  | .number _, h => by cases h
  | .bigint _, h => by cases h
  | .string _, h => by cases h

theorem size_prototype_lt (proto : Option Js) (fields : List (String × Js)) :
    (prototype (.object proto fields)).size < (Js.object proto fields).size := by
  cases proto with
  | none => simp only [prototype, size]; omega
  | some p => simp only [prototype, size]; omega

/-- What is read off an object is smaller than it. -/
theorem size_get_lt {js v : Js} {key : String} (h : get R js key = .ok v) : v.size < js.size := by
  unfold get at h
  split at h
  · next hobj =>
    split at h
    · next x hx => cases h; exact size_find_lt hx
    · split at h
      · split at h
        · cases h; exact size_prototype_lt _ _
        · cases h; exact size_pos hobj
      · cases h; exact size_pos hobj
  · cases h

/-! ### Properties of plain objects -/

theorem lookup_cons_eq (key key' : String) (v : Js) (fields : List (String × Js)) :
    ((key, v) :: fields).lookup key' = if key' = key then some v else fields.lookup key' := by
  rw [List.lookup_cons]
  by_cases h : key' = key
  · simp [h]
  · have hbeq : (key' == key) = false := by simpa using h
    rw [hbeq, if_neg h]

theorem lookup_upsert (key key' : String) (v : Js) (fields : List (String × Js)) :
    (upsert key v fields).lookup key' = if key' = key then some v else fields.lookup key' := by
  induction fields with
  | nil => exact lookup_cons_eq key key' v []
  | cons f rest ih =>
    obtain ⟨k, x⟩ := f
    simp only [upsert]
    by_cases hk : key = k
    · subst hk
      rw [if_pos rfl, lookup_cons_eq, lookup_cons_eq]
      split <;> rfl
    · rw [if_neg hk, lookup_cons_eq, ih, lookup_cons_eq]
      by_cases h : key' = k
      · rw [if_pos h, if_pos h, if_neg]
        rintro rfl
        exact hk h
      · rw [if_neg h, if_neg h]

/-- An own property is read. -/
theorem get_of_lookup {proto : Option Js} {fields : List (String × Js)} {key : String} {v : Js}
    (h : fields.lookup key = some v) : get R (.object proto fields) key = .ok v := by
  cases proto with
  | none => simp [get, isObject, find, h]
  | some proto => simp [get, isObject, find, h]

/-- A property that is neither own nor inherited is not there. -/
theorem get_of_not_mem {fields : List (String × Js)} {key : String}
    (h : fields.lookup key = none) (hkey : key ≠ protoKey) (hinherit : key ∉ R.objectMembers) :
    get R (.object none fields) key = .ok .undefined := by
  simp [get, isObject, find, h, hkey, hinherit]

/-- A name but `__proto__` that no prototype refuses is set as an own property. -/
theorem set_of_settable {proto : Option Js} {fields : List (String × Js)} {key : String} (v : Js)
    (hkey : key ≠ protoKey) (h : settable R (.object proto fields) key = true) :
    set R (.object proto fields) key v = .ok (.object proto (upsert key v fields)) := by
  simp [set, hkey, h]

/-- On an object as `js::object` makes it, any name but `__proto__` is. -/
theorem set_eq {fields : List (String × Js)} {key : String} (v : Js) (hkey : key ≠ protoKey) :
    set R (.object none fields) key v = .ok (.object none (upsert key v fields)) :=
  set_of_settable v hkey (by rw [settable])

end Js

/-! ### Fields of objects -/

section Fields

variable (R : Runtime)

/-- `object_field`. -/
def objectField (value : Js) (name : String) : Except DerError Js :=
  match value.get R name with
  | .error e => .error e
  | .ok field => if field.nullish then .error .failed else .ok field

/-- `optional_field`: missing, `null` and `undefined` are `None`. -/
def optionalField (value : Js) (name : String) : Except DerError (Option Js) :=
  match value.get R name with
  | .error e => .error e
  | .ok field => if field.nullish then .ok none else .ok (some field)

/-- `as_array`. -/
def asArray : Js → Except DerError (List Js)
  | .array items => .ok items
  | _ => .error .failed

/-- `as_array_len`. -/
def asArrayLen (value : Js) (expected : ℕ) : Except DerError (List Js) :=
  match asArray value with
  | .error e => .error e
  | .ok items => if items.length ≠ expected then .error .failed else .ok items

/-- `array_field`. -/
def arrayField (value : Js) (name : String) : Except DerError (List Js) :=
  match objectField R value name with
  | .error e => .error e
  | .ok field => asArray field

/-- `single_entry`: the one own enumerable key of a tag object and what is under it. -/
def singleEntry (value : Js) : Except DerError (String × Js) :=
  match value with
  | .object _ [(key, _)] =>
      if value.rooted then
        match value.get R key with
        | .error e => .error e
        | .ok entry => if entry.nullish then .error .failed else .ok (key, entry)
      else .error .failed
  | .array [entry] => if entry.nullish then .error .failed else .ok ("0", entry)
  | .bytes [octet] => .ok ("0", .int octet.toNat)
  | _ => .error .failed

theorem size_objectField_lt {value field : Js} {name : String}
    (h : objectField R value name = .ok field) : field.size < value.size := by
  unfold objectField at h
  split at h
  · cases h
  · next hget =>
    split at h
    · cases h
    · cases h; exact Js.size_get_lt hget

theorem size_optionalField_lt {value field : Js} {name : String}
    (h : optionalField R value name = .ok (some field)) : field.size < value.size := by
  unfold optionalField at h
  split at h
  · cases h
  · next hget =>
    split at h
    · cases h
    · cases h; exact Js.size_get_lt hget

theorem sizeAll_asArray_lt {value : Js} {items : List Js} (h : asArray value = .ok items) :
    Js.sizeAll items < value.size := by
  unfold asArray at h
  split at h
  · cases h
    simp only [Js.size]
    omega
  · cases h

theorem size_singleEntry_lt {value entry : Js} {key : String}
    (h : singleEntry R value = .ok (key, entry)) : entry.size < value.size := by
  unfold singleEntry at h
  split at h
  · split at h
    · split at h
      · cases h
      · next hget =>
        split at h
        · cases h
        · cases h; exact Js.size_get_lt hget
    · cases h
  · split at h
    · cases h
    · cases h
      simp only [Js.size, Js.sizeAll]
      omega
  · cases h
    simp [Js.size, Js.int]
  · cases h

end Fields

/-! ### Leaf types -/

/-- The integer field types. -/
inductive IntKind
  /-- `u8`. -/
  | u8
  /-- `u16`. -/
  | u16
  /-- `u32`. -/
  | u32
  /-- `u64`. -/
  | u64
  /-- `i8`. -/
  | i8
  /-- `i16`. -/
  | i16
  /-- `i32`. -/
  | i32
  /-- `i64`. -/
  | i64
  deriving DecidableEq, Repr

/-- `MIN`. -/
def IntKind.min : IntKind → ℤ
  | .i8 => -2 ^ 7
  | .i16 => -2 ^ 15
  | .i32 => -2 ^ 31
  | .i64 => -2 ^ 63
  | _ => 0

/-- `MAX`. -/
def IntKind.max : IntKind → ℤ
  | .u8 => 2 ^ 8 - 1
  | .u16 => 2 ^ 16 - 1
  | .u32 => 2 ^ 32 - 1
  | .u64 => 2 ^ 64 - 1
  | .i8 => 2 ^ 7 - 1
  | .i16 => 2 ^ 15 - 1
  | .i32 => 2 ^ 31 - 1
  | .i64 => 2 ^ 63 - 1

/-- It is a bigint in JavaScript. -/
def IntKind.big : IntKind → Bool
  | .u64 => true
  | .i64 => true
  | _ => false

/-- The field types that are a string in JavaScript and go through a constructor of the
codec library. -/
inductive TextKind
  /-- `Ia5String::new`. -/
  | ia5String
  /-- `PrintableString::new`. -/
  | printableString
  /-- `TeletexString::new`. -/
  | teletexString
  /-- `BmpString::from_utf8`. -/
  | bmpString
  /-- `ObjectIdentifier::new`, dotted. -/
  | objectIdentifier
  /-- `UtcTime::from_date_time` of an RFC 3339 text. -/
  | utcTime
  /-- `GeneralizedTime::from_date_time` of an RFC 3339 text. -/
  | generalizedTime
  deriving DecidableEq, Repr

/-- The leaf field types. -/
inductive LeafKind
  /-- `bool`. -/
  | bool
  /-- `Null`. -/
  | null
  /-- An integer. -/
  | int (k : IntKind)
  /-- `String`. -/
  | string
  /-- A restricted string, an identifier or a time. -/
  | text (k : TextKind)
  /-- `OctetString`. -/
  | octetString
  /-- `BitString`. -/
  | bitString
  /-- `Any`. -/
  | any
  deriving DecidableEq, Repr

/-- The value of a leaf field. -/
inductive Leaf
  /-- Of a `bool`. -/
  | bool (b : Bool)
  /-- Of a `Null`. -/
  | null
  /-- Of an integer. -/
  | int (n : ℤ)
  /-- Of a `String`. -/
  | string (s : List Char)
  /-- Of a restricted string, an identifier or a time: its text. -/
  | text (s : List Char)
  /-- Of an `OctetString`. -/
  | octetString (octets : Octets)
  /-- Of a `BitString`. -/
  | bitString (unusedBits : UInt8) (bytes : Octets)
  /-- Of an `Any`: its encoding. -/
  | any (der : Octets)
  deriving DecidableEq, Repr

/-- The constructors of the codec library.  Each gives back the value it built, as the text
or the octets it is projected to. -/
structure Constructors where
  /-- From a text. -/
  text : TextKind → List Char → Except DerError (List Char)
  /-- `OctetString::new`. -/
  octetString : Octets → Except DerError Octets
  /-- `BitString::new`. -/
  bitString : UInt8 → Octets → Except DerError (UInt8 × Octets)
  /-- `Any::from_der`. -/
  any : Octets → Except DerError Octets

/-- A value of the codec library: its constructor builds it again. -/
def Leaf.Valid (C : Constructors) : LeafKind → Leaf → Prop
  | .bool, .bool _ => True
  | .null, .null => True
  | .int k, .int n => k.min ≤ n ∧ n ≤ k.max
  | .string, .string _ => True
  | .text k, .text s => C.text k s = .ok s
  | .octetString, .octetString octets => C.octetString octets = .ok octets
  | .bitString, .bitString unusedBits bytes =>
      C.bitString unusedBits bytes = .ok (unusedBits, bytes)
  | .any, .any der => C.any der = .ok der
  | _, _ => False

/-! ### Reading leaves -/

/-- `as_bool`. -/
def asBool : Js → Except DerError Bool
  | .bool b => .ok b
  | _ => .error .failed

/-- `as_null`. -/
def asNull : Js → Except DerError Unit
  | .null => .ok ()
  | _ => .error .failed

/-- `as_string`; a lone surrogate reads as U+FFFD. -/
def asString : Js → Except DerError (List Char)
  | .string units => .ok (scalars units)
  | _ => .error .failed

/-- `as_octets`. -/
def asOctets : Js → Except DerError Octets
  | .bytes octets => .ok octets
  | _ => .error .failed

/-- `as_number`. -/
def asNumber : Js → Except DerError JsNumber
  | .number x => .ok x
  | _ => .error .failed

/-- `f64_as_signed`. -/
def f64AsSigned (number : JsNumber) (min max : ℤ) : Except DerError ℤ :=
  match number with
  | .notFinite => .error .failed
  | .finite q =>
      if q.den ≠ 1 then .error .failed
      else if q.num < min ∨ max < q.num then .error .failed
      else .ok q.num

/-- `f64_as_unsigned`. -/
def f64AsUnsigned (number : JsNumber) (max : ℤ) : Except DerError ℤ := f64AsSigned number 0 max

/-- `as_bigint` and the range check of `try_from`. -/
def asBigint (min max : ℤ) : Js → Except DerError ℤ
  | .bigint n => if n < min ∨ max < n then .error .failed else .ok n
  | _ => .error .failed

/-- `as_u8` to `as_i64`. -/
def asInt (k : IntKind) (value : Js) : Except DerError ℤ :=
  match k with
  | .u8 | .u16 | .u32 => (asNumber value).bind fun x => f64AsUnsigned x k.max
  | .i8 | .i16 | .i32 => (asNumber value).bind fun x => f64AsSigned x k.min k.max
  | .u64 | .i64 => asBigint k.min k.max value

/-- `as_u8`. -/
def asU8 (value : Js) : Except DerError UInt8 :=
  match asInt .u8 value with
  | .error e => .error e
  | .ok n => .ok (UInt8.ofNat n.toNat)

variable (R : Runtime) (C : Constructors)

/-- `as_bitstring`. -/
def asBitstring (value : Js) : Except DerError (UInt8 × Octets) := do
  let unusedBits ← (objectField R value "unusedBits").bind asU8
  let bytes ← (objectField R value "bytes").bind asOctets
  C.bitString unusedBits bytes

/-- The `as_x` helper of a leaf type. -/
def interpret : LeafKind → Js → Except DerError Leaf
  | .bool, value => (asBool value).map .bool
  | .null, value => (asNull value).map fun _ => .null
  | .int k, value => (asInt k value).map .int
  | .string, value => (asString value).map .string
  | .text k, value => ((asString value).bind (C.text k)).map .text
  | .octetString, value => ((asOctets value).bind C.octetString).map .octetString
  | .bitString, value => (asBitstring R C value).map fun v => .bitString v.1 v.2
  | .any, value => ((asOctets value).bind C.any).map .any

/-! ### Writing leaves -/

/-- `from_u8` to `from_i64`. -/
def fromInt (k : IntKind) (n : ℤ) : Js := if k.big then .bigint n else .int n

/-- `from_bitstring`. -/
def fromBitstring (unusedBits : UInt8) (bytes : Octets) : Except DerError Js := do
  let object ← Js.empty.set R "unusedBits" (.int unusedBits.toNat)
  object.set R "bytes" (.bytes bytes)

/-- The `from_x` helper of a leaf type. -/
def project : LeafKind → Leaf → Except DerError Js
  | .bool, .bool b => .ok (.bool b)
  | .null, .null => .ok .null
  | .int k, .int n => .ok (fromInt k n)
  | .string, .string s => .ok (.text s)
  | .text _, .text s => .ok (.text s)
  | .octetString, .octetString octets => .ok (.bytes octets)
  | .bitString, .bitString unusedBits bytes => fromBitstring R unusedBits bytes
  | .any, .any der => .ok (.bytes der)
  -- the kind is the type of the value
  | _, _ => .error .failed

/-! ### The helper pairs -/

theorem asString_text (s : List Char) : asString (.text s) = .ok s := by
  show Except.ok (scalars (utf16 s)) = _
  rw [scalars_utf16]

theorem f64AsSigned_int {n min max : ℤ} (hmin : min ≤ n) (hmax : n ≤ max) :
    f64AsSigned (.finite n) min max = .ok n := by
  have hin : ¬ (n < min ∨ max < n) := by omega
  simp [f64AsSigned, hin]

theorem asInt_fromInt {k : IntKind} {n : ℤ} (hmin : k.min ≤ n) (hmax : n ≤ k.max) :
    asInt k (fromInt k n) = .ok n := by
  cases k with
  | u8 | u16 | u32 | i8 | i16 | i32 => exact f64AsSigned_int hmin hmax
  | u64 | i64 => exact if_neg (by omega)

theorem asU8_int (n : UInt8) : asU8 (.int n.toNat) = .ok n := by
  have hlt := n.toNat_lt
  have hread : asInt .u8 (.int n.toNat) = .ok (n.toNat : ℤ) :=
    asInt_fromInt (k := .u8) (by simp [IntKind.min]) (by simp [IntKind.max]; omega)
  rw [asU8, hread]
  simp

variable {R C}

/-- **The helper pairs are inverse** on the values of the codec library, and only `Null` is
projected to `null`. -/
theorem interpret_project {k : LeafKind} {v : Leaf} (h : v.Valid C k) :
    ∃ js, project R k v = .ok js ∧ interpret R C k js = .ok v ∧
      (js.nullish = true ↔ k = .null) := by
  unfold Leaf.Valid at h
  split at h
  · exact ⟨_, rfl, rfl, by simp [Js.nullish]⟩
  · exact ⟨_, rfl, rfl, by simp [Js.nullish]⟩
  · next k n =>
    refine ⟨_, rfl, by simp only [interpret, asInt_fromInt h.1 h.2, Except.map], ?_⟩
    unfold fromInt
    split <;> simp [Js.nullish, Js.int]
  · next s => exact ⟨_, rfl, by simp only [interpret, asString_text, Except.map], by
      simp [Js.nullish, Js.text]⟩
  · next k s => exact ⟨_, rfl, by simp only [interpret, asString_text, Except.bind, h, Except.map],
      by simp [Js.nullish, Js.text]⟩
  · next octets => exact ⟨_, rfl, by simp only [interpret, asOctets, Except.bind, h, Except.map],
      by simp [Js.nullish]⟩
  · next unusedBits bytes =>
    refine ⟨.object none [("unusedBits", .int unusedBits.toNat), ("bytes", .bytes bytes)], ?_, ?_,
      by simp [Js.nullish]⟩
    · simp only [project, fromBitstring, Js.empty]
      rw [Js.set_eq _ (by decide)]
      show Js.set R (.object none [("unusedBits", .int unusedBits.toNat)]) "bytes" _ = _
      rw [Js.set_eq _ (by decide)]
      rfl
    · have hunused : objectField R (.object none [("unusedBits", .int unusedBits.toNat),
          ("bytes", .bytes bytes)]) "unusedBits" = .ok (.int unusedBits.toNat) := by
        rw [objectField, Js.get_of_lookup rfl]
        rfl
      have hbytes : objectField R (.object none [("unusedBits", .int unusedBits.toNat),
          ("bytes", .bytes bytes)]) "bytes" = .ok (.bytes bytes) := by
        rw [objectField, Js.get_of_lookup rfl]
        rfl
      simp only [interpret, asBitstring, hunused, hbytes, Except.bind, asU8_int, asOctets]
      show Except.map _ (C.bitString unusedBits bytes) = _
      rw [h]
      rfl
  · next der => exact ⟨_, rfl, by simp only [interpret, asOctets, Except.bind, h, Except.map],
      by simp [Js.nullish]⟩
  · exact absurd h not_false

end Asn
end TightbeamExt
