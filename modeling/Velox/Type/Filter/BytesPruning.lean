import Velox.Type.Filter.Bytes

-- `testBytesRange` of the string filters (`velox/type/Filter.cpp`): whether a column chunk
-- whose values lie in `[min, max]`, an absent bound being unbounded, may hold a passing value.
-- A dereference of an absent `std::optional` is undefined behaviour; the model returns `none`
-- there.

namespace Velox.Common

open ByteString

namespace BytesRange

def testBytesRange (range : BytesRange) (min max : Option (List UInt8)) (hasNull : Bool) :
    Option Bool :=
  if hasNull && range.nullAllowed then some true
  else
    some ((range.lowerUnbounded || match max with
        | none => true
        | some max => compareRanges max range.lower ≥ (if range.lowerExclusive then 1 else 0)) &&
      (range.upperUnbounded || match min with
        | none => true
        | some min => compareRanges min range.upper ≤ (if range.upperExclusive then -1 else 0)))

end BytesRange

structure NegatedBytesRange where
  nonNegated : BytesRange
  nullAllowed : Bool

namespace NegatedBytesRange

def testBytes (range : NegatedBytesRange) (value : List UInt8) : Bool :=
  !range.nonNegated.testBytes value

def testBytesRange (range : NegatedBytesRange) (min max : Option (List UInt8))
    (hasNull : Bool) : Option Bool :=
  if hasNull && range.nullAllowed then some true
  else if (min.isNone && !range.nonNegated.lowerUnbounded) ||
      (max.isNone && !range.nonNegated.upperUnbounded) then some true
  else match min, max with
    | some min, some max =>
      if min = max then some (range.testBytes min)
      -- both ends inside the rejected range: every value between them is rejected
      else some (range.testBytes min || range.testBytes max)
    -- `min->data()` or `max->data()` of an absent bound
    | _, _ => none

end NegatedBytesRange

structure BytesValues where
  values : List (List UInt8)
  nullAllowed : Bool
  nonEmpty : values ≠ []

namespace BytesValues

def extreme (greatest : Bool) (values : BytesValues) : List UInt8 :=
  match values.values with
  | [] => []
  | first :: rest => rest.foldl (fun best value =>
      if (if greatest then compareRanges best value < 0 else compareRanges value best < 0)
      then value else best) first

def lower (values : BytesValues) : List UInt8 := values.extreme false

def upper (values : BytesValues) : List UInt8 := values.extreme true

def testBytes (values : BytesValues) (value : List UInt8) : Bool :=
  values.values.any (·.length == value.length) && values.values.contains value

def testBytesRange (values : BytesValues) (min max : Option (List UInt8)) (hasNull : Bool) :
    Option Bool :=
  if hasNull && values.nullAllowed then some true
  else match min, max with
    | some min, some max =>
      if min = max then some (values.testBytes min)
      else some (compareRanges min values.upper ≤ 0 && compareRanges max values.lower ≥ 0)
    | some min, none => some (compareRanges min values.upper ≤ 0)
    | none, some max => some (compareRanges max values.lower ≥ 0)
    | none, none => some true

end BytesValues

structure NegatedBytesValues where
  nonNegated : BytesValues
  nullAllowed : Bool

namespace NegatedBytesValues

def testBytes (values : NegatedBytesValues) (value : List UInt8) : Bool :=
  !values.nonNegated.testBytes value

def testBytesRange (values : NegatedBytesValues) (min max : Option (List UInt8))
    (hasNull : Bool) : Option Bool :=
  if hasNull && values.nullAllowed then some true
  else match min, max with
    | some min, some max => if min = max then some (values.testBytes min) else some true
    -- a range of strings always holds one that is not in the set
    | _, _ => some true

end NegatedBytesValues

inductive StringFilter where
  | bytesRange (range : BytesRange)
  | negatedBytesRange (range : NegatedBytesRange)
  | bytesValues (values : BytesValues)
  | negatedBytesValues (values : NegatedBytesValues)
  | multiRange (filters : List StringFilter) (nullAllowed : Bool)

namespace StringFilter

def testNull : StringFilter → Bool
  | bytesRange range => range.nullAllowed
  | negatedBytesRange range => range.nullAllowed
  | bytesValues values => values.nullAllowed
  | negatedBytesValues values => values.nullAllowed
  | multiRange _ nullAllowed => nullAllowed

mutual

def testBytes : StringFilter → List UInt8 → Bool
  | bytesRange range, value => range.testBytes value
  | negatedBytesRange range, value => range.testBytes value
  | bytesValues values, value => values.testBytes value
  | negatedBytesValues values, value => values.testBytes value
  | multiRange filters _, value => anyTestBytes filters value

def anyTestBytes : List StringFilter → List UInt8 → Bool
  | [], _ => false
  | filter :: filters, value => testBytes filter value || anyTestBytes filters value

end

mutual

def testBytesRange : StringFilter → Option (List UInt8) → Option (List UInt8) → Bool →
    Option Bool
  | bytesRange range, min, max, hasNull => range.testBytesRange min max hasNull
  | negatedBytesRange range, min, max, hasNull => range.testBytesRange min max hasNull
  | bytesValues values, min, max, hasNull => values.testBytesRange min max hasNull
  | negatedBytesValues values, min, max, hasNull => values.testBytesRange min max hasNull
  | multiRange filters nullAllowed, min, max, hasNull =>
    if hasNull && nullAllowed then some true else anyTestBytesRange filters min max hasNull

def anyTestBytesRange :
    List StringFilter → Option (List UInt8) → Option (List UInt8) → Bool → Option Bool
  | [], _, _, _ => some false
  | filter :: filters, min, max, hasNull =>
    match testBytesRange filter min max hasNull with
    | some true => some true
    | some false => anyTestBytesRange filters min max hasNull
    | none => none

end

end StringFilter

/-- `NOT (s <= "m")` reads the absent lower bound of a chunk whose values are at most "z"; and
    the range `["", "")`, which passes the empty string, prunes a chunk of empty strings. -/
theorem string_range_pruning_unsound :
    (∃ range, BytesRange.create [] true false [109] false false false = .ok range ∧
      (StringFilter.negatedBytesRange ⟨range, false⟩).testBytesRange none (some [122]) false =
        none) ∧
    (∃ range, BytesRange.create [] false false [] false true false = .ok range ∧
      (StringFilter.bytesRange range).testBytes [] = true ∧
      (StringFilter.bytesRange range).testBytesRange (some []) (some []) false = some false) :=
  ⟨⟨_, rfl, rfl⟩, ⟨_, rfl, by decide, by decide⟩⟩

end Velox.Common
