import Mathlib

-- `folly::dynamic` as the serializers use it, as an interface: values built from booleans,
-- 64-bit integers, strings, arrays and objects, and the accessors that read them back, each of
-- which may throw. `LawfulDynamic` names all that the serializers' round trips rely on.

namespace Folly

class Dynamic (D : Type) where
  bool : Bool → D
  int : Int64 → D
  string : String → D
  array : List D → D
  object : List (String × D) → D
  /-- `obj[key]` of a `const dynamic&`. -/
  get : D → String → Except String D
  asInt : D → Except String Int64
  asBool : D → Except String Bool
  asString : D → Except String String
  /-- The elements a range-for over an array visits. -/
  items : D → Except String (List D)

/-- A stored value reads back as itself, and an object is read by the first field of the key. -/
class LawfulDynamic (D : Type) [Dynamic D] : Prop where
  asInt_int : ∀ value, Dynamic.asInt (Dynamic.int value : D) = .ok value
  asBool_bool : ∀ value, Dynamic.asBool (Dynamic.bool value : D) = .ok value
  asString_string : ∀ value, Dynamic.asString (Dynamic.string value : D) = .ok value
  items_array : ∀ items : List D, Dynamic.items (Dynamic.array items) = .ok items
  get_object_cons_self : ∀ key (value : D) fields,
    Dynamic.get (Dynamic.object ((key, value) :: fields)) key = .ok value
  get_object_cons_of_ne : ∀ {key other : String}, other ≠ key → ∀ (value : D) fields,
    Dynamic.get (Dynamic.object ((other, value) :: fields)) key =
      Dynamic.get (Dynamic.object fields) key

namespace Dynamic

variable {D : Type} [Dynamic D] [LawfulDynamic D]

@[simp] theorem asInt_int (value : Int64) : asInt (int value : D) = .ok value :=
  LawfulDynamic.asInt_int value

@[simp] theorem asBool_bool (value : Bool) : asBool (bool value : D) = .ok value :=
  LawfulDynamic.asBool_bool value

@[simp] theorem asString_string (value : String) : asString (string value : D) = .ok value :=
  LawfulDynamic.asString_string value

@[simp] theorem items_array (items : List D) : Dynamic.items (array items) = .ok items :=
  LawfulDynamic.items_array items

@[simp] theorem get_object_cons_self (key : String) (value : D) (fields : List (String × D)) :
    get (object ((key, value) :: fields)) key = .ok value :=
  LawfulDynamic.get_object_cons_self key value fields

@[simp] theorem get_object_cons_of_ne {key other : String} (differ : other ≠ key) (value : D)
    (fields : List (String × D)) :
    get (object ((other, value) :: fields)) key = get (object fields) key :=
  LawfulDynamic.get_object_cons_of_ne differ value fields

end Dynamic

/-- A value tree with the accessors of `folly::dynamic` on its own kinds of value, one
    implementation that keeps the laws. -/
inductive DynamicTree where
  | bool (value : Bool)
  | int (value : Int64)
  | string (value : String)
  | array (items : List DynamicTree)
  | object (fields : List (String × DynamicTree))

namespace DynamicTree

def get : DynamicTree → String → Except String DynamicTree
  | .object fields, key =>
    match fields.lookup key with
    | some value => .ok value
    | none => .error ("couldn't find key " ++ key ++ " in dynamic object")
  | _, _ => .error "TypeError: expected dynamic type 'object'"

instance : Dynamic DynamicTree where
  bool := .bool
  int := .int
  string := .string
  array := .array
  object := .object
  get := get
  asInt
    | .int value => .ok value
    | _ => .error "TypeError: expected dynamic type 'int64'"
  asBool
    | .bool value => .ok value
    | _ => .error "TypeError: expected dynamic type 'bool'"
  asString
    | .string value => .ok value
    | _ => .error "TypeError: expected dynamic type 'string'"
  items
    | .array items => .ok items
    | _ => .error "TypeError: expected dynamic type 'array'"

instance : LawfulDynamic DynamicTree where
  asInt_int _ := rfl
  asBool_bool _ := rfl
  asString_string _ := rfl
  items_array _ := rfl
  get_object_cons_self key value fields := by
    simp [Dynamic.get, Dynamic.object, get, List.lookup]
  get_object_cons_of_ne {key other} differ value fields := by
    have unequal : (key == other) = false := beq_eq_false_iff_ne.mpr (Ne.symm differ)
    simp [Dynamic.get, Dynamic.object, get, List.lookup, unequal]

end DynamicTree

end Folly
