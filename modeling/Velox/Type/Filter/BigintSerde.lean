import Velox.Type.Filter.Bigint
import Velox.Library.FollyDynamic
import Velox.Library.WordConversions
import Velox.Library.ExceptMonad

-- `serialize` and `create(const folly::dynamic&)` of the int64 filters
-- (`velox/type/Filter.cpp`). The static `create` is named `deserialize` here, as `create`
-- already names the constructors.

namespace Velox.Common

open ExceptMonad

variable {D : Type} [Folly.Dynamic D]

/-- `Filter::serializeBase`: the class name and the null flag. Its `kind` entry, which no
    `create` reads, is left out. -/
def serializeBase (name : String) (nullAllowed : Bool) : List (String × D) :=
  [("name", Folly.Dynamic.string name), ("nullAllowed", Folly.Dynamic.bool nullAllowed)]

def deserializeNullAllowed (obj : D) : Except String Bool := do
  Folly.Dynamic.asBool (← Folly.Dynamic.get obj "nullAllowed")

def deserializeValues (obj : D) : Except String (List Int64) := do
  let valuesArray ← Folly.Dynamic.items (← Folly.Dynamic.get obj "values")
  valuesArray.mapM Folly.Dynamic.asInt

/-- `ISerializable::deserialize<T>` for a class `T` whose `create` is `deserializeAs`: the
    registry picks the class by the object's name, and for another class the
    `dynamic_pointer_cast` gives a null pointer, which the caller dereferences. -/
def deserializeClass {α : Type} (className : String)
    (deserializeAs : D → Except String α) (obj : D) : Except String α := do
  let name ← Folly.Dynamic.asString (← Folly.Dynamic.get obj "name")
  if name = className then deserializeAs obj
  else .error ("null pointer from dynamic_pointer_cast to " ++ className)

namespace BigintRange

def serialize (range : BigintRange) : D :=
  Folly.Dynamic.object (serializeBase "BigintRange" range.nullAllowed ++
    [("lower", Folly.Dynamic.int range.lower), ("upper", Folly.Dynamic.int range.upper)])

def deserialize (obj : D) : Except String BigintRange := do
  let lower ← Folly.Dynamic.asInt (← Folly.Dynamic.get obj "lower")
  let upper ← Folly.Dynamic.asInt (← Folly.Dynamic.get obj "upper")
  let nullAllowed ← deserializeNullAllowed obj
  return ⟨lower, upper, nullAllowed⟩

end BigintRange

namespace BigintValuesUsingHashTable

def serialize (filter : BigintValuesUsingHashTable) : D :=
  Folly.Dynamic.object (serializeBase "BigintValuesUsingHashTable" filter.nullAllowed ++
    [("min", Folly.Dynamic.int filter.min), ("max", Folly.Dynamic.int filter.max),
      ("values", Folly.Dynamic.array (filter.values.map Folly.Dynamic.int))])

def deserialize (obj : D) : Except String BigintValuesUsingHashTable := do
  let nullAllowed ← deserializeNullAllowed obj
  let min ← Folly.Dynamic.asInt (← Folly.Dynamic.get obj "min")
  let max ← Folly.Dynamic.asInt (← Folly.Dynamic.get obj "max")
  let values ← deserializeValues obj
  create min max values nullAllowed

end BigintValuesUsingHashTable

namespace BigintValuesUsingBitmask

/-- The values are written as `i + min_` for each set bit `i`, which `values` computes. -/
def serialize (filter : BigintValuesUsingBitmask) : D :=
  Folly.Dynamic.object (serializeBase "BigintValuesUsingBitmask" filter.nullAllowed ++
    [("min", Folly.Dynamic.int filter.min), ("max", Folly.Dynamic.int filter.max),
      ("values", Folly.Dynamic.array (filter.values.map Folly.Dynamic.int))])

def deserialize (obj : D) : Except String BigintValuesUsingBitmask := do
  let min ← Folly.Dynamic.asInt (← Folly.Dynamic.get obj "min")
  let max ← Folly.Dynamic.asInt (← Folly.Dynamic.get obj "max")
  let nullAllowed ← deserializeNullAllowed obj
  let values ← deserializeValues obj
  create min max values nullAllowed

end BigintValuesUsingBitmask

namespace BigintFilter

/-- `serialize` of each int64 filter. `NegatedBigintValuesUsingBitmask` writes its `min_` and
    `max_`, which are `int` fields set from the constructor's `int64_t` bounds, the inner
    bitmask's bounds. -/
def serialize : BigintFilter → D
  | .alwaysFalse => Folly.Dynamic.object (serializeBase "AlwaysFalse" false)
  | .alwaysTrue => Folly.Dynamic.object (serializeBase "AlwaysTrue" true)
  | .isNull => Folly.Dynamic.object (serializeBase "IsNull" true)
  | .isNotNull => Folly.Dynamic.object (serializeBase "IsNotNull" false)
  | .boolValue value nullAllowed =>
    Folly.Dynamic.object
      (serializeBase "BoolValue" nullAllowed ++ [("value", Folly.Dynamic.bool value)])
  | .bigintRange range => range.serialize
  | .negatedBigintRange nonNegated nullAllowed =>
    Folly.Dynamic.object (serializeBase "NegatedBigintRange" nullAllowed ++
      [("lower", Folly.Dynamic.int nonNegated.lower),
        ("upper", Folly.Dynamic.int nonNegated.upper)])
  | .bigintValuesUsingHashTable filter => filter.serialize
  | .bigintValuesUsingBitmask filter => filter.serialize
  | .negatedBigintValuesUsingHashTable nonNegated nullAllowed =>
    Folly.Dynamic.object (serializeBase "NegatedBigintValuesUsingHashTable" nullAllowed ++
      [("nonNegated", nonNegated.serialize)])
  | .negatedBigintValuesUsingBitmask nonNegated nullAllowed =>
    Folly.Dynamic.object (serializeBase "NegatedBigintValuesUsingBitmask" nullAllowed ++
      [("min", Folly.Dynamic.int nonNegated.min.toInt32.toInt64),
        ("max", Folly.Dynamic.int nonNegated.max.toInt32.toInt64),
        ("nonNegated", nonNegated.serialize)])
  | .bigintMultiRange ranges nullAllowed =>
    Folly.Dynamic.object (serializeBase "BigintMultiRange" nullAllowed ++
      [("ranges", Folly.Dynamic.array (ranges.map BigintRange.serialize))])

end BigintFilter

def NegatedBigintRange.deserialize (obj : D) : Except String BigintFilter := do
  let lower ← Folly.Dynamic.asInt (← Folly.Dynamic.get obj "lower")
  let upper ← Folly.Dynamic.asInt (← Folly.Dynamic.get obj "upper")
  let nullAllowed ← deserializeNullAllowed obj
  return NegatedBigintRange.create lower upper nullAllowed

def NegatedBigintValuesUsingHashTable.deserialize (obj : D) :
    Except String BigintFilter := do
  let nullAllowed ← deserializeNullAllowed obj
  let nonNegated ← deserializeClass "BigintValuesUsingHashTable"
    BigintValuesUsingHashTable.deserialize (← Folly.Dynamic.get obj "nonNegated")
  NegatedBigintValuesUsingHashTable.create nonNegated.min nonNegated.max nonNegated.values
    nullAllowed

def NegatedBigintValuesUsingBitmask.deserialize (obj : D) :
    Except String BigintFilter := do
  let min ← Folly.Dynamic.asInt (← Folly.Dynamic.get obj "min")
  let max ← Folly.Dynamic.asInt (← Folly.Dynamic.get obj "max")
  let nullAllowed ← deserializeNullAllowed obj
  let nonNegated ← deserializeClass "BigintValuesUsingBitmask"
    BigintValuesUsingBitmask.deserialize (← Folly.Dynamic.get obj "nonNegated")
  NegatedBigintValuesUsingBitmask.create min max nonNegated.values nullAllowed

def BigintMultiRange.deserialize (obj : D) : Except String BigintFilter := do
  let nullAllowed ← deserializeNullAllowed obj
  let ranges ← (← Folly.Dynamic.items (← Folly.Dynamic.get obj "ranges")).mapM
    (deserializeClass "BigintRange" BigintRange.deserialize)
  BigintMultiRange.create ranges nullAllowed

namespace BigintFilter

def createRegistered (name : String) (obj : D) : Except String BigintFilter :=
  match name with
  | "AlwaysFalse" => return .alwaysFalse
  | "AlwaysTrue" => return .alwaysTrue
  | "IsNull" => return .isNull
  | "IsNotNull" => return .isNotNull
  | "BoolValue" => do
    let value ← Folly.Dynamic.asBool (← Folly.Dynamic.get obj "value")
    let nullAllowed ← deserializeNullAllowed obj
    return .boolValue value nullAllowed
  | "BigintRange" => return .bigintRange (← BigintRange.deserialize obj)
  | "NegatedBigintRange" => NegatedBigintRange.deserialize obj
  | "BigintValuesUsingHashTable" =>
    return .bigintValuesUsingHashTable (← BigintValuesUsingHashTable.deserialize obj)
  | "BigintValuesUsingBitmask" =>
    return .bigintValuesUsingBitmask (← BigintValuesUsingBitmask.deserialize obj)
  | "NegatedBigintValuesUsingHashTable" => NegatedBigintValuesUsingHashTable.deserialize obj
  | "NegatedBigintValuesUsingBitmask" => NegatedBigintValuesUsingBitmask.deserialize obj
  | "BigintMultiRange" => BigintMultiRange.deserialize obj
  | _ => .error ("Deserialization function for class: " ++ name ++ " is not registered")

/-- `ISerializable::deserialize<Filter>`: the registered `create` of the class the object
    names. -/
def deserialize (obj : D) : Except String BigintFilter := do
  let name ← Folly.Dynamic.asString (← Folly.Dynamic.get obj "name")
  createRegistered name obj

end BigintFilter

namespace BigintValuesUsingBitmask

theorem foldlM_setBit_ok (min : Int64) :
    ∀ {values : List Int64} {mask result : List Bool},
      values.foldlM (fun bitmask value => setBit bitmask (bitIndex value min)) mask = .ok result →
      result.length = mask.length ∧ (∀ i, mask.getD i false = true → result.getD i false = true) ∧
        ∀ value ∈ values, result.getD (bitIndex value min) false = true
  | [], mask, result, folded => by
    simp only [List.foldlM_nil, pure, Except.pure, Except.ok.injEq] at folded
    subst folded
    exact ⟨rfl, fun _ bit => bit, fun _ member => by cases member⟩
  | value :: rest, mask, result, folded => by
    rw [List.foldlM_cons] at folded
    obtain ⟨marked, written, folded⟩ := bind_ok folded
    unfold setBit at written
    split_ifs at written with inside
    simp only [Except.ok.injEq] at written
    subst written
    obtain ⟨sized, keeps, marks⟩ := foldlM_setBit_ok min folded
    have here : (mask.set (bitIndex value min) true).getD (bitIndex value min) false = true := by
      simp [List.getD_eq_getElem?_getD, inside]
    refine ⟨by rw [sized, List.length_set], fun i bit => keeps i ?_, ?_⟩
    · by_cases same : bitIndex value min = i
      · subst same
        exact here
      · simpa [List.getD_eq_getElem?_getD, List.getElem?_set, same] using bit
    · intro other member
      rcases List.mem_cons.mp member with rfl | later
      · exact keeps _ here
      · exact marks other later

theorem foldlM_setBit_of_inside (min : Int64) :
    ∀ {values : List Int64} {mask : List Bool},
      (∀ value ∈ values, bitIndex value min < mask.length) →
      ∃ result, values.foldlM (fun bitmask value => setBit bitmask (bitIndex value min)) mask =
        .ok result
  | [], mask, _ => ⟨mask, rfl⟩
  | value :: rest, mask, inside => by
    have written : setBit mask (bitIndex value min) = .ok (mask.set (bitIndex value min) true) :=
      if_pos (inside value (List.mem_cons_self ..))
    have later : ∀ other ∈ rest,
        bitIndex other min < (mask.set (bitIndex value min) true).length := by
      intro other member
      rw [List.length_set]
      exact inside other (List.mem_cons_of_mem _ member)
    obtain ⟨result, folded⟩ := foldlM_setBit_of_inside min later
    exact ⟨result, by rw [List.foldlM_cons, written]; exact folded⟩

theorem create_eq_ok {min max : Int64} {values : List Int64} {nullAllowed : Bool}
    {filter : BigintValuesUsingBitmask} (created : create min max values nullAllowed = .ok filter) :
    min < max ∧ 1 < values.length ∧ filter.min = min ∧ filter.max = max ∧
      values.foldlM (fun bitmask value => setBit bitmask (bitIndex value min))
        (List.replicate (max - min + 1).toUInt64.toNat false) = .ok filter.bitmask := by
  unfold create at created
  split_ifs at created with ordered several
  obtain ⟨bitmask, folded, done⟩ := bind_ok created
  simp only [pure, Except.pure, Except.ok.injEq] at done
  subst done
  exact ⟨ordered, several, rfl, rfl, folded⟩

theorem toNat_bitmaskSize (min max : Int64) :
    ((max - min + 1).toUInt64.toNat : Int) = (max.toInt - min.toInt + 1) % 2 ^ 64 := by
  rw [Int64.toNat_toUInt64, Int64.toInt_add, Int64.toInt_sub, Int64.toInt_one, Int.bmod_def,
    Int.bmod_def]
  push_cast
  split_ifs <;> omega

theorem toNat_bitIndex (value min : Int64) :
    (bitIndex value min : Int) = (value.toInt - min.toInt) % 2 ^ 64 := by
  rw [bitIndex, Int64.toNat_toUInt64, Int64.toInt_sub, Int.bmod_def]
  push_cast
  split_ifs <;> omega

theorem bitmaskSize_le_bitIndex {min max value : Int64} (ordered : min < max)
    (above : max < value) : (max - min + 1).toUInt64.toNat ≤ bitIndex value min := by
  have size := toNat_bitmaskSize min max
  have index := toNat_bitIndex value min
  rw [Int64.lt_iff_toInt_lt] at ordered above
  have := min.le_toInt
  have := value.toInt_lt
  rw [Int.emod_eq_of_lt (by omega) (by omega)] at size index
  omega

@[simp] theorem bitIndex_self (value : Int64) : bitIndex value value = 0 := by
  simp only [bitIndex, Int64.sub_self]
  rfl

theorem eq_of_bitIndex_eq_zero {value min : Int64} (zero : bitIndex value min = 0) :
    value = min := by
  have index := toNat_bitIndex value min
  rw [zero] at index
  have := value.le_toInt
  have := value.toInt_lt
  have := min.le_toInt
  have := min.toInt_lt
  exact Int64.toInt_inj.mp (by omega)

theorem bitIndex_add_ofNat (min : Int64) {i : Nat} (small : i < 2 ^ 64) :
    bitIndex (min + Int64.ofNat i) min = i := by
  have cancel : min + Int64.ofNat i - min = Int64.ofNat i := by
    apply Int64.toBitVec_inj.mp
    simp
  rw [bitIndex, cancel]
  simpa using Nat.mod_eq_of_lt small

theorem mem_values {filter : BigintValuesUsingBitmask} {i : Nat}
    (set : filter.bitmask.getD i false = true) : filter.min + Int64.ofNat i ∈ filter.values := by
  have inside : i < filter.bitmask.length := by
    by_contra outside
    simp [List.getD_eq_getElem?_getD, List.getElem?_eq_none (Nat.le_of_not_lt outside)] at set
  exact List.mem_map.mpr ⟨i, List.mem_filter.mpr ⟨List.mem_range.mpr inside, set⟩, rfl⟩

theorem values_eq_cons {filter : BigintValuesUsingBitmask}
    (first : filter.bitmask.getD 0 false = true) : ∃ rest, filter.values = filter.min :: rest := by
  have nonempty : 0 < filter.bitmask.length := by
    by_contra empty
    simp_all
  obtain ⟨n, sized⟩ : ∃ n, filter.bitmask.length = n + 1 :=
    ⟨_, (Nat.succ_pred_eq_of_pos nonempty).symm⟩
  have head : filter.min + Int64.ofNat 0 = filter.min := by
    apply Int64.toBitVec_inj.mp
    simp
  rw [values, sized, List.range_succ_eq_map, List.filter_cons_of_pos (by simpa using first),
    List.map_cons, head]
  exact ⟨_, rfl⟩

theorem bitIndex_lt_of_mem_values {filter : BigintValuesUsingBitmask} {value : Int64}
    (small : filter.bitmask.length ≤ 2 ^ 64) (member : value ∈ filter.values) :
    bitIndex value filter.min < filter.bitmask.length := by
  obtain ⟨i, kept, rfl⟩ := List.mem_map.mp member
  have inside := List.mem_range.mp (List.mem_filter.mp kept).1
  rw [bitIndex_add_ofNat _ (by omega)]
  exact inside

end BigintValuesUsingBitmask

theorem NegatedBigintValuesUsingBitmask.create_eq_ok {min max : Int64} {values : List Int64}
    {nullAllowed : Bool} {f : BigintFilter}
    (created : NegatedBigintValuesUsingBitmask.create min max values nullAllowed = .ok f) :
    ∃ nonNegated, BigintValuesUsingBitmask.create min max values (!nullAllowed) = .ok nonNegated ∧
      f = .negatedBigintValuesUsingBitmask nonNegated nullAllowed := by
  unfold NegatedBigintValuesUsingBitmask.create at created
  split_ifs at created
  cases inner : BigintValuesUsingBitmask.create min max values (!nullAllowed) with
  | error message => simp [inner, Except.map] at created
  | ok nonNegated =>
    simp only [inner, Except.map, Except.ok.injEq] at created
    exact ⟨nonNegated, rfl, created.symm⟩

section Laws

variable [Folly.LawfulDynamic D]

theorem mapM_asInt_int (values : List Int64) :
    values.mapM (Folly.Dynamic.asInt ∘ (Folly.Dynamic.int : Int64 → D)) = .ok values := by
  induction values with
  | nil => rfl
  | cons value rest ih =>
    rw [List.mapM_cons, ih]
    simp [bind, Except.bind, pure, Except.pure]

theorem deserializeClass_of_name {α : Type} {className : String}
    {deserializeAs : D → Except String α} {obj : D}
    (named : Folly.Dynamic.get obj "name" = .ok (Folly.Dynamic.string className)) :
    deserializeClass className deserializeAs obj = deserializeAs obj := by
  simp [deserializeClass, named, bind, Except.bind]

theorem BigintFilter.deserialize_of_name {name : String} {obj : D}
    (named : Folly.Dynamic.get obj "name" = .ok (Folly.Dynamic.string name)) :
    BigintFilter.deserialize obj = BigintFilter.createRegistered name obj := by
  simp [BigintFilter.deserialize, named, bind, Except.bind]

/-! Reading back what `serialize` wrote. The keys of an object are told apart by `decide`; the
    accessors are then applied in a second pass, as one pass over both makes a proof term that
    the kernel cannot check. -/

theorem BigintRange.deserialize_serialize (range : BigintRange) :
    BigintRange.deserialize (range.serialize : D) = .ok range := by
  simp (disch := decide) only [BigintRange.serialize, BigintRange.deserialize, serializeBase,
    List.cons_append, List.nil_append, deserializeNullAllowed, Folly.Dynamic.get_object_cons_self,
    Folly.Dynamic.get_object_cons_of_ne]
  simp only [bind, Except.bind, pure, Except.pure, Folly.Dynamic.asInt_int,
    Folly.Dynamic.asBool_bool]

theorem BigintValuesUsingBitmask.deserialize_serialize (filter : BigintValuesUsingBitmask) :
    BigintValuesUsingBitmask.deserialize (filter.serialize : D) =
      BigintValuesUsingBitmask.create filter.min filter.max filter.values filter.nullAllowed := by
  simp (disch := decide) only [BigintValuesUsingBitmask.serialize,
    BigintValuesUsingBitmask.deserialize, serializeBase, List.cons_append, List.nil_append,
    deserializeNullAllowed, deserializeValues, Folly.Dynamic.get_object_cons_self,
    Folly.Dynamic.get_object_cons_of_ne]
  simp only [bind, Except.bind, Folly.Dynamic.asInt_int, Folly.Dynamic.asBool_bool,
    Folly.Dynamic.items_array,
    List.mapM_map, mapM_asInt_int]

theorem NegatedBigintRange.deserialize_serialize (lower upper : Int64) (nullAllowed : Bool) :
    NegatedBigintRange.deserialize
        ((NegatedBigintRange.create lower upper nullAllowed).serialize : D) =
      .ok (NegatedBigintRange.create lower upper nullAllowed) := by
  simp (disch := decide) only [NegatedBigintRange.create, BigintFilter.serialize, serializeBase,
    List.cons_append, List.nil_append, NegatedBigintRange.deserialize, deserializeNullAllowed,
    Folly.Dynamic.get_object_cons_self, Folly.Dynamic.get_object_cons_of_ne]
  simp only [bind, Except.bind, pure, Except.pure, Folly.Dynamic.asInt_int,
    Folly.Dynamic.asBool_bool]

theorem NegatedBigintValuesUsingBitmask.deserialize_serialize
    (nonNegated : BigintValuesUsingBitmask) (nullAllowed : Bool) :
    NegatedBigintValuesUsingBitmask.deserialize
        ((BigintFilter.negatedBigintValuesUsingBitmask nonNegated nullAllowed).serialize : D) =
      (BigintValuesUsingBitmask.create nonNegated.min nonNegated.max nonNegated.values
          nonNegated.nullAllowed).bind fun renewed =>
        NegatedBigintValuesUsingBitmask.create nonNegated.min.toInt32.toInt64
          nonNegated.max.toInt32.toInt64 renewed.values nullAllowed := by
  have named : Folly.Dynamic.get (nonNegated.serialize : D) "name" =
      .ok (Folly.Dynamic.string "BigintValuesUsingBitmask") := by
    simp [BigintValuesUsingBitmask.serialize, serializeBase]
  simp (disch := decide) only [BigintFilter.serialize, serializeBase, List.cons_append,
    List.nil_append, NegatedBigintValuesUsingBitmask.deserialize, deserializeNullAllowed,
    Folly.Dynamic.get_object_cons_self, Folly.Dynamic.get_object_cons_of_ne]
  simp only [bind, Except.bind, Folly.Dynamic.asInt_int, Folly.Dynamic.asBool_bool]
  rw [deserializeClass_of_name named, BigintValuesUsingBitmask.deserialize_serialize]

theorem mapM_deserializeClass_serialize (ranges : List BigintRange) :
    (ranges.map (BigintRange.serialize : BigintRange → D)).mapM
      (deserializeClass "BigintRange" BigintRange.deserialize) = .ok ranges := by
  induction ranges with
  | nil => rfl
  | cons range rest ih =>
    have named : Folly.Dynamic.get (range.serialize : D) "name" =
        .ok (Folly.Dynamic.string "BigintRange") := by
      simp [BigintRange.serialize, serializeBase]
    rw [List.map_cons, List.mapM_cons, ih, deserializeClass_of_name named,
      BigintRange.deserialize_serialize]
    rfl

namespace BigintFilter

theorem deserialize_serialize_bigintRange (range : BigintRange) :
    deserialize (serialize (.bigintRange range) : D) = .ok (.bigintRange range) := by
  have named : Folly.Dynamic.get (serialize (.bigintRange range) : D) "name" =
      .ok (Folly.Dynamic.string "BigintRange") := by
    simp [serialize, BigintRange.serialize, serializeBase]
  rw [deserialize_of_name named]
  simp only [createRegistered, serialize, BigintRange.deserialize_serialize]
  rfl

theorem deserialize_serialize_negatedBigintRange (lower upper : Int64) (nullAllowed : Bool) :
    deserialize (serialize (NegatedBigintRange.create lower upper nullAllowed) : D) =
      .ok (NegatedBigintRange.create lower upper nullAllowed) := by
  have named : Folly.Dynamic.get (serialize (NegatedBigintRange.create lower upper nullAllowed) : D)
      "name" = .ok (Folly.Dynamic.string "NegatedBigintRange") := by
    simp [NegatedBigintRange.create, serialize, serializeBase]
  rw [deserialize_of_name named]
  simp only [createRegistered, NegatedBigintRange.deserialize_serialize]

theorem deserialize_serialize_bigintMultiRange {ranges : List BigintRange} {nullAllowed : Bool}
    {f : BigintFilter} (created : BigintMultiRange.create ranges nullAllowed = .ok f) :
    deserialize (f.serialize : D) = .ok f := by
  have accepted : f = .bigintMultiRange ranges nullAllowed := by
    unfold BigintMultiRange.create at created
    split_ifs at created
    exact (Except.ok.inj created).symm
  subst accepted
  have named : Folly.Dynamic.get (serialize (.bigintMultiRange ranges nullAllowed) : D) "name" =
      .ok (Folly.Dynamic.string "BigintMultiRange") := by
    simp [serialize, serializeBase]
  rw [deserialize_of_name named]
  simp (disch := decide) only [createRegistered, serialize, serializeBase, List.cons_append,
    List.nil_append, BigintMultiRange.deserialize, deserializeNullAllowed,
    Folly.Dynamic.get_object_cons_self, Folly.Dynamic.get_object_cons_of_ne]
  simp only [bind, Except.bind, Folly.Dynamic.asBool_bool, Folly.Dynamic.items_array,
    mapM_deserializeClass_serialize, created]

end BigintFilter

theorem BigintFilter.deserialize_serialize_negatedBigintValuesUsingBitmask
    (nonNegated : BigintValuesUsingBitmask) (nullAllowed : Bool) :
    BigintFilter.deserialize
        ((BigintFilter.negatedBigintValuesUsingBitmask nonNegated nullAllowed).serialize : D) =
      (BigintValuesUsingBitmask.create nonNegated.min nonNegated.max nonNegated.values
          nonNegated.nullAllowed).bind fun renewed =>
        NegatedBigintValuesUsingBitmask.create nonNegated.min.toInt32.toInt64
          nonNegated.max.toInt32.toInt64 renewed.values nullAllowed := by
  have named : Folly.Dynamic.get
      ((BigintFilter.negatedBigintValuesUsingBitmask nonNegated nullAllowed).serialize : D)
      "name" = .ok (Folly.Dynamic.string "NegatedBigintValuesUsingBitmask") := by
    simp [BigintFilter.serialize, serializeBase]
  rw [BigintFilter.deserialize_of_name named]
  simp only [BigintFilter.createRegistered, NegatedBigintValuesUsingBitmask.deserialize_serialize]

end Laws

namespace BigintValuesUsingBitmask

theorem recreate_values {min max : Int64} {values : List Int64} {nullAllowed : Bool}
    {filter : BigintValuesUsingBitmask} (created : create min max values nullAllowed = .ok filter)
    {j : Nat} (first : filter.bitmask.getD 0 false = true)
    (other : filter.bitmask.getD j false = true) (positive : 0 < j) :
    ∃ renewed rest, create filter.min filter.max filter.values filter.nullAllowed = .ok renewed ∧
      renewed.values = min :: rest ∧ rest ≠ [] := by
  obtain ⟨ordered, -, rfl, rfl, folded⟩ := create_eq_ok created
  have small : filter.bitmask.length < 2 ^ 64 := by
    rw [(foldlM_setBit_ok _ folded).1, List.length_replicate]
    exact UInt64.toNat_lt _
  have inside : ∀ value ∈ filter.values, bitIndex value filter.min <
      (List.replicate (filter.max - filter.min + 1).toUInt64.toNat false).length := by
    intro value member
    rw [← (foldlM_setBit_ok _ folded).1]
    exact bitIndex_lt_of_mem_values small.le member
  obtain ⟨bitmask, refolded⟩ := foldlM_setBit_of_inside filter.min inside
  obtain ⟨start, entries⟩ := values_eq_cons first
  have jInside : j < filter.bitmask.length := by
    by_contra outside
    simp [List.getD_eq_getElem?_getD, List.getElem?_eq_none (Nat.le_of_not_lt outside)] at other
  have distinct : filter.min + Int64.ofNat j ≠ filter.min := by
    intro same
    have index := congrArg (bitIndex · filter.min) same
    simp only [bitIndex_add_ofNat _ (by omega : j < 2 ^ 64), bitIndex_self] at index
    omega
  have several : 1 < filter.values.length := by
    have member := mem_values other
    rw [entries] at member ⊢
    rcases List.mem_cons.mp member with same | later
    · exact absurd same distinct
    · simp only [List.length_cons]
      have := List.length_pos_of_mem later
      omega
  have renewed : create filter.min filter.max filter.values filter.nullAllowed =
      .ok ⟨bitmask, filter.min, filter.max, filter.nullAllowed⟩ := by
    simp only [create, if_pos ordered, if_pos several, refolded, bind, Except.bind, pure,
      Except.pure]
  -- the rebuilt mask has the bits of `min` and of `min + j` set again
  have marks := (foldlM_setBit_ok filter.min refolded).2.2
  have firstAgain : bitmask.getD 0 false = true := by
    have := marks filter.min (by rw [entries]; exact List.mem_cons_self ..)
    rwa [bitIndex_self] at this
  have otherAgain := marks _ (mem_values other)
  rw [bitIndex_add_ofNat _ (by omega)] at otherAgain
  obtain ⟨rest, renewedEntries⟩ :=
    @values_eq_cons ⟨bitmask, filter.min, filter.max, filter.nullAllowed⟩ firstAgain
  refine ⟨_, rest, renewed, renewedEntries, ?_⟩
  rintro rfl
  have member :=
    @mem_values ⟨bitmask, filter.min, filter.max, filter.nullAllowed⟩ _ otherAgain
  rw [renewedEntries, List.mem_singleton] at member
  exact distinct member

end BigintValuesUsingBitmask

/-- `NegatedBigintValuesUsingBitmask` keeps its bounds in `int` fields, so a filter over values
    at or above `2^32` writes bounds that lost their high bits. `create` rebuilds the inner
    bitmask from those bounds and the values, the first of which is the original lower bound,
    above the narrowed upper bound: its bit lies past the end of the rebuilt `bitmask_`. -/
theorem negated_bitmask_round_trip_writes_outside [Folly.LawfulDynamic D] (min max : Int64)
    (values : List Int64) (nullAllowed : Bool) (f : BigintFilter)
    (created : NegatedBigintValuesUsingBitmask.create min max values nullAllowed = .ok f)
    (member : min ∈ values) (other : ∃ value ∈ values, value ≠ min)
    (narrowed : max.toInt32.toInt64 < min)
    (ordered : min.toInt32.toInt64 < max.toInt32.toInt64) :
    BigintFilter.deserialize (f.serialize : D) =
      .error BigintValuesUsingBitmask.outOfBoundsWrite := by
  obtain ⟨nonNegated, inner, rfl⟩ := NegatedBigintValuesUsingBitmask.create_eq_ok created
  obtain ⟨-, -, lower, upper, folded⟩ := BigintValuesUsingBitmask.create_eq_ok inner
  obtain ⟨value, valueMember, distinct⟩ := other
  -- the bits of `min` and of the other value are set in the original mask
  have marks := (BigintValuesUsingBitmask.foldlM_setBit_ok min folded).2.2
  have first : nonNegated.bitmask.getD 0 false = true := by
    have := marks min member
    rwa [BigintValuesUsingBitmask.bitIndex_self] at this
  have positive : 0 < bitIndex value min :=
    Nat.pos_of_ne_zero fun zero => distinct (BigintValuesUsingBitmask.eq_of_bitIndex_eq_zero zero)
  obtain ⟨renewed, rest, recreated, entries, more⟩ :=
    BigintValuesUsingBitmask.recreate_values inner first (marks value valueMember) positive
  rw [BigintFilter.deserialize_serialize_negatedBigintValuesUsingBitmask, recreated]
  simp only [Except.bind]
  -- the rebuilt negated filter's inner mask spans the narrowed bounds
  have outside : (List.replicate
      (max.toInt32.toInt64 - min.toInt32.toInt64 + 1).toUInt64.toNat false).length ≤
      bitIndex min min.toInt32.toInt64 := by
    rw [List.length_replicate]
    exact BigintValuesUsingBitmask.bitmaskSize_le_bitIndex ordered narrowed
  have several : 1 < (min :: rest).length := by
    cases rest with
    | nil => exact absurd rfl more
    | cons _ _ => simp
  simp only [lower, upper, NegatedBigintValuesUsingBitmask.create, if_pos (le_of_lt ordered),
    entries,
    BigintValuesUsingBitmask.create, if_pos ordered, if_pos several, List.foldlM_cons,
    BigintValuesUsingBitmask.setBit, if_neg (Nat.not_lt.mpr outside), bind, Except.bind,
    Except.map]

theorem negated_bitmask_over_two_pow_32 :
    NegatedBigintValuesUsingBitmask.create 4294967296 4294967298 [4294967296, 4294967298] false =
        .ok (.negatedBigintValuesUsingBitmask ⟨[true, false, true], 4294967296, 4294967298, true⟩
          false) ∧
      (4294967298 : Int64).toInt32.toInt64 = 2 ∧ (4294967296 : Int64).toInt32.toInt64 = 0 ∧
      bitIndex 4294967296 0 = 4294967296 ∧
      BigintFilter.deserialize ((BigintFilter.negatedBigintValuesUsingBitmask
          ⟨[true, false, true], 4294967296, 4294967298, true⟩ false).serialize :
            Folly.DynamicTree) =
        .error BigintValuesUsingBitmask.outOfBoundsWrite := by
  have created : NegatedBigintValuesUsingBitmask.create 4294967296 4294967298
      [4294967296, 4294967298] false = .ok (.negatedBigintValuesUsingBitmask
        ⟨[true, false, true], 4294967296, 4294967298, true⟩ false) := by decide
  refine ⟨created, by decide, by decide, by decide, ?_⟩
  exact negated_bitmask_round_trip_writes_outside _ _ _ _ _ created (by simp)
    ⟨4294967298, by simp, by decide⟩ (by decide) (by decide)

end Velox.Common
