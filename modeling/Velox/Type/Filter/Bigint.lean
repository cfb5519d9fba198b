import Velox.Library.Int64Order
import Velox.Library.LowerBound

namespace Velox.Common

open BinarySearch

/-- `BigintValuesUsingHashTable::kEmptyMarker`, `0xdeadbeefbadefeedL` read as an `int64_t`. -/
def kEmptyMarker : Int64 := (0xdeadbeefbadefeed : UInt64).toInt64

def M : UInt64 := 0xc6a4a7935bd1e995

def kPaddingElements : Nat := 4

structure BigintRange where
  lower : Int64
  upper : Int64
  nullAllowed : Bool
deriving DecidableEq, Repr

namespace BigintRange

def testInt64 (range : BigintRange) (value : Int64) : Bool :=
  value ≥ range.lower && value ≤ range.upper

def isSingleValue (range : BigintRange) : Bool :=
  range.upper == range.lower

def testInt64Range (range : BigintRange) (min max : Int64) (hasNull : Bool) : Bool :=
  if hasNull && range.nullAllowed then true
  else !(min > range.upper || max < range.lower)

end BigintRange

def hashPosition (value : Int64) (sizeMask : Nat) : Nat :=
  ((value.toUInt64 * M) &&& UInt64.ofNat sizeMask).toNat

/-- The probe loop of the constructor: from slot `i`, store `value` in the first empty slot
    among the next `remaining` ones, each index taken `& sizeMask_`. -/
def probeInsert (table : List Int64) (sizeMask : Nat) (value : Int64) (i : Nat) :
    (remaining : Nat) → List Int64
  | 0 => table
  | remaining + 1 =>
    let index := i &&& sizeMask
    if table.getD index kEmptyMarker = kEmptyMarker then table.set index value
    else probeInsert table sizeMask value (i + 1) remaining

def probeFind (table : List Int64) (sizeMask : Nat) (value : Int64) (i : Nat) :
    (remaining : Nat) → Bool
  | 0 => false
  | remaining + 1 =>
    let l := table.getD (i &&& sizeMask) kEmptyMarker
    if l = kEmptyMarker then false
    else if l = value then true
    else probeFind table sizeMask value (i + 1) remaining

structure BigintValuesUsingHashTable where
  min : Int64
  max : Int64
  hashTable : List Int64
  containsEmptyMarker : Bool
  values : List Int64
  sizeMask : Nat
  nullAllowed : Bool
deriving DecidableEq, Repr

namespace BigintValuesUsingHashTable

def tableSize (count : Nat) : Nat := 2 ^ Nat.log2 (count * 5)

def fillTable (sizeMask : Nat) (values : List Int64) (table : List Int64) : List Int64 × Bool :=
  values.foldl (fun (current : List Int64 × Bool) value =>
      if value = kEmptyMarker then (current.1, true)
      else (probeInsert current.1 sizeMask value (hashPosition value sizeMask) (sizeMask + 1),
        current.2))
    (table, false)

def padTable (sizeMask : Nat) (table : List Int64) : List Int64 :=
  (List.range kPaddingElements).foldl
    (fun current i => current.set (sizeMask + 1 + i) (current.getD sizeMask kEmptyMarker)) table

def create (min max : Int64) (values : List Int64) (nullAllowed : Bool) :
    Except String BigintValuesUsingHashTable :=
  if min < max then
    if 1 < values.length then
      let size := tableSize values.length
      let filled := fillTable (size - 1)
        values (List.replicate (size + kPaddingElements) kEmptyMarker)
      .ok { min, max, hashTable := padTable (size - 1) filled.1,
            containsEmptyMarker := filled.2, values := values.insertionSort (· ≤ ·),
            sizeMask := size - 1, nullAllowed }
    else .error "values must contain at least 2 entries"
  else .error "min must be less than max"

def testInt64 (filter : BigintValuesUsingHashTable) (value : Int64) : Bool :=
  if filter.containsEmptyMarker && value == kEmptyMarker then true
  else if value < filter.min || value > filter.max then false
  else probeFind filter.hashTable filter.sizeMask value
    (hashPosition value filter.sizeMask) (filter.sizeMask + 1)

def testInt64Range (filter : BigintValuesUsingHashTable) (min max : Int64) (hasNull : Bool) :
    Bool :=
  if hasNull && filter.nullAllowed then true
  else if min == max then filter.testInt64 min
  else if min > filter.max || max < filter.min then false
  else
    -- `*it` where `it = std::lower_bound(values_, min)`; past the end only on a broken filter.
    match filter.values[lowerBound filter.values min]? with
    | some first => min == first || max >= first
    | none => false

end BigintValuesUsingHashTable

def bitIndex (value min : Int64) : Nat := (value - min).toUInt64.toNat

structure BigintValuesUsingBitmask where
  bitmask : List Bool
  min : Int64
  max : Int64
  nullAllowed : Bool
deriving DecidableEq, Repr

namespace BigintValuesUsingBitmask

/-- The fault of an out-of-range `bitmask_[i] = true`, a write past the end of the vector. -/
def outOfBoundsWrite : String := "bitmask_ written past its end"

def setBit (bitmask : List Bool) (index : Nat) : Except String (List Bool) :=
  if index < bitmask.length then .ok (bitmask.set index true) else .error outOfBoundsWrite

def create (min max : Int64) (values : List Int64) (nullAllowed : Bool) :
    Except String BigintValuesUsingBitmask :=
  if min < max then
    if 1 < values.length then do
      let bitmask ← values.foldlM (fun bitmask value => setBit bitmask (bitIndex value min))
        (List.replicate (max - min + 1).toUInt64.toNat false)
      pure { bitmask, min, max, nullAllowed }
    else .error "values must contain at least 2 entries"
  else .error "min must be less than max"

def testInt64 (filter : BigintValuesUsingBitmask) (value : Int64) : Bool :=
  if value < filter.min || value > filter.max then false
  else filter.bitmask.getD (bitIndex value filter.min) false

def values (filter : BigintValuesUsingBitmask) : List Int64 :=
  ((List.range filter.bitmask.length).filter (fun i => filter.bitmask.getD i false)).map
    (fun i => filter.min + Int64.ofNat i)

def testInt64Range (filter : BigintValuesUsingBitmask) (min max : Int64) (hasNull : Bool) : Bool :=
  if hasNull && filter.nullAllowed then true
  else if min == max then filter.testInt64 min
  else !(min > filter.max || max < filter.min)

end BigintValuesUsingBitmask

inductive BigintFilter where
  | alwaysFalse
  | alwaysTrue
  | isNull
  | isNotNull
  | boolValue (value : Bool) (nullAllowed : Bool)
  | bigintRange (range : BigintRange)
  | negatedBigintRange (nonNegated : BigintRange) (nullAllowed : Bool)
  | bigintValuesUsingHashTable (filter : BigintValuesUsingHashTable)
  | bigintValuesUsingBitmask (filter : BigintValuesUsingBitmask)
  | negatedBigintValuesUsingHashTable (nonNegated : BigintValuesUsingHashTable) (nullAllowed : Bool)
  | negatedBigintValuesUsingBitmask (nonNegated : BigintValuesUsingBitmask) (nullAllowed : Bool)
  | bigintMultiRange (ranges : List BigintRange) (nullAllowed : Bool)
deriving DecidableEq, Repr

namespace NegatedBigintRange

/-- The constructor keeps the accepted range as a `BigintRange` with the opposite null flag. -/
def create (lower upper : Int64) (nullAllowed : Bool) : BigintFilter :=
  .negatedBigintRange ⟨lower, upper, !nullAllowed⟩ nullAllowed

end NegatedBigintRange

namespace NegatedBigintValuesUsingHashTable

def create (min max : Int64) (values : List Int64) (nullAllowed : Bool) :
    Except String BigintFilter :=
  (BigintValuesUsingHashTable.create min max values (!nullAllowed)).map
    (.negatedBigintValuesUsingHashTable · nullAllowed)

def testInt64Range (nonNegated : BigintValuesUsingHashTable) (nullAllowed : Bool)
    (min max : Int64) (hasNull : Bool) : Bool :=
  if hasNull && nullAllowed then true
  else if min == max then !nonNegated.testInt64 min
  else if max > nonNegated.max || min < nonNegated.min then true
  else
    let lo := lowerBound nonNegated.values min
    let hi := lowerBound nonNegated.values max
    if nonNegated.values[lo]? != some min || nonNegated.values[hi]? != some max then true
    -- every value of `[min, max]` is rejected when `hi - lo` reaches `max - min`
    else Int64.ofNat (hi - lo) != max - min

end NegatedBigintValuesUsingHashTable

namespace NegatedBigintValuesUsingBitmask

def create (min max : Int64) (values : List Int64) (nullAllowed : Bool) :
    Except String BigintFilter :=
  if min ≤ max then
    (BigintValuesUsingBitmask.create min max values (!nullAllowed)).map
      (.negatedBigintValuesUsingBitmask · nullAllowed)
  else .error "min must be no greater than max"

end NegatedBigintValuesUsingBitmask

namespace BigintMultiRange

def lowerBounds (ranges : List BigintRange) : List Int64 := ranges.map (·.lower)

def nonOverlapping (ranges : List BigintRange) : Bool :=
  (ranges.zip ranges.tail).all (fun pair => pair.2.lower ≥ pair.1.upper)

def create (ranges : List BigintRange) (nullAllowed : Bool) : Except String BigintFilter :=
  if ranges.isEmpty then .error "ranges is empty"
  else if ranges.length ≤ 1 then .error "should contain at least 2 ranges"
  else if nonOverlapping ranges then .ok (.bigintMultiRange ranges nullAllowed)
  else .error "bigint ranges must not overlap"

def testInt64 (ranges : List BigintRange) (value : Int64) : Bool :=
  let place := lowerBound (lowerBounds ranges) value
  if (lowerBounds ranges)[place]? = some value then true
  else if place = 0 then false
  else match ranges[place - 1]? with
    | some range => range.testInt64 value
    | none => false

end BigintMultiRange

namespace BigintFilter

def testNull : BigintFilter → Bool
  | .alwaysFalse => false
  | .alwaysTrue => true
  | .isNull => true
  | .isNotNull => false
  | .boolValue _ nullAllowed => nullAllowed
  | .bigintRange range => range.nullAllowed
  | .negatedBigintRange _ nullAllowed => nullAllowed
  | .bigintValuesUsingHashTable filter => filter.nullAllowed
  | .bigintValuesUsingBitmask filter => filter.nullAllowed
  | .negatedBigintValuesUsingHashTable _ nullAllowed => nullAllowed
  | .negatedBigintValuesUsingBitmask _ nullAllowed => nullAllowed
  | .bigintMultiRange _ nullAllowed => nullAllowed

def testInt64 : BigintFilter → Int64 → Bool
  | .alwaysFalse, _ => false
  | .alwaysTrue, _ => true
  | .isNull, _ => false
  | .isNotNull, _ => true
  | .boolValue value _, x => value == (x != 0)
  | .bigintRange range, x => range.testInt64 x
  | .negatedBigintRange nonNegated _, x => !nonNegated.testInt64 x
  | .bigintValuesUsingHashTable filter, x => filter.testInt64 x
  | .bigintValuesUsingBitmask filter, x => filter.testInt64 x
  | .negatedBigintValuesUsingHashTable nonNegated _, x => !nonNegated.testInt64 x
  | .negatedBigintValuesUsingBitmask nonNegated _, x => !nonNegated.testInt64 x
  | .bigintMultiRange ranges _, x => BigintMultiRange.testInt64 ranges x

def testInt64Range : BigintFilter → Int64 → Int64 → Bool → Bool
  | .alwaysFalse, _, _, _ => false
  | .alwaysTrue, _, _, _ => true
  | .isNull, _, _, hasNull => hasNull
  | .isNotNull, _, _, _ => true
  | .boolValue value nullAllowed, min, max, hasNull =>
    if hasNull && nullAllowed then true
    else if value then min != 0 || max != 0
    else min ≤ 0 && max ≥ 0
  | .bigintRange range, min, max, hasNull => range.testInt64Range min max hasNull
  | .negatedBigintRange nonNegated nullAllowed, min, max, hasNull =>
    if hasNull && nullAllowed then true
    else !(nonNegated.lower ≤ min && max ≤ nonNegated.upper)
  | .bigintValuesUsingHashTable filter, min, max, hasNull => filter.testInt64Range min max hasNull
  | .bigintValuesUsingBitmask filter, min, max, hasNull => filter.testInt64Range min max hasNull
  | .negatedBigintValuesUsingHashTable nonNegated nullAllowed, min, max, hasNull =>
    NegatedBigintValuesUsingHashTable.testInt64Range nonNegated nullAllowed min max hasNull
  | .negatedBigintValuesUsingBitmask nonNegated nullAllowed, min, max, hasNull =>
    if hasNull && nullAllowed then true
    else if min == max then !nonNegated.testInt64 min
    else true
  | .bigintMultiRange ranges nullAllowed, min, max, hasNull =>
    if hasNull && nullAllowed then true
    else ranges.any (·.testInt64Range min max hasNull)

def rejectedValues : BigintFilter → List Int64
  | .negatedBigintValuesUsingHashTable nonNegated _ => nonNegated.values
  | .negatedBigintValuesUsingBitmask nonNegated _ => nonNegated.values
  | _ => []

def nullOrFalse (nullAllowed : Bool) : BigintFilter :=
  if nullAllowed then .isNull else .alwaysFalse

def notNullOrTrue (nullAllowed : Bool) : BigintFilter :=
  if nullAllowed then .alwaysTrue else .isNotNull

end BigintFilter

def valueBounds (first : Int64) (rest : List Int64) : Int64 × Int64 :=
  rest.foldl (fun (bounds : Int64 × Int64) value =>
      if value > bounds.2 then (bounds.1, value)
      else if value < bounds.1 then (value, bounds.2)
      else bounds)
    (first, first)

def createBigintValuesFilter (values : List Int64) (nullAllowed negated : Bool) :
    Except String BigintFilter :=
  match values with
  | [] => .ok (if negated then .notNullOrTrue nullAllowed else .nullOrFalse nullAllowed)
  | [value] =>
    .ok (if negated then NegatedBigintRange.create value value nullAllowed
      else .bigintRange ⟨value, value, nullAllowed⟩)
  | first :: rest =>
    let (min, max) := valueBounds first rest
    let range := max - min
    -- `__builtin_sub_overflow(max, min, &range)`
    let overflow := decide (2 ^ 63 ≤ max.toInt - min.toInt)
    if !overflow && range.toUInt64.toNat + 1 == values.length then
      .ok (if negated then NegatedBigintRange.create min max nullAllowed
        else .bigintRange ⟨min, max, nullAllowed⟩)
    else if !overflow && (range.toInt < 32 * 64 || range.toInt < values.length * 4 * 64) then
      if negated then NegatedBigintValuesUsingBitmask.create min max values nullAllowed
      else (BigintValuesUsingBitmask.create min max values nullAllowed).map
        .bigintValuesUsingBitmask
    else if negated then NegatedBigintValuesUsingHashTable.create min max values nullAllowed
    else (BigintValuesUsingHashTable.create min max values nullAllowed).map
      .bigintValuesUsingHashTable

def createBigintValues (values : List Int64) (nullAllowed : Bool) : Except String BigintFilter :=
  createBigintValuesFilter values nullAllowed false

def createNegatedBigintValues (values : List Int64) (nullAllowed : Bool) :
    Except String BigintFilter :=
  createBigintValuesFilter values nullAllowed true

/-- `NegatedBigintValuesUsingHashTable::testInt64Range` counts the rejected values of
    `[min, max]` as `std::distance` between two `lower_bound`s, so a repeated value counts
    twice: NOT IN `[1, 1, 3, 100000]` reports that `[1, 3]` has no passing value, though `2`
    passes. -/
theorem negated_duplicates_prune_passing_value :
    (createNegatedBigintValues [1, 1, 3, 100000] false).map
      (fun f => (f.testInt64Range 1 3 false, f.testInt64 2)) = .ok (false, true) := by
  decide

end Velox.Common
