import Velox.Type.Filter.Bigint

namespace Velox.Common

open BinarySearch BigintFilter

def unreachable : String := "VELOX_UNREACHABLE"

namespace AlwaysFalse

def mergeWith (_other : BigintFilter) : Except String BigintFilter := .ok .alwaysFalse

end AlwaysFalse

namespace AlwaysTrue

def mergeWith (other : BigintFilter) : Except String BigintFilter := .ok other

end AlwaysTrue

namespace IsNull

def mergeWith (other : BigintFilter) : Except String BigintFilter :=
  .ok (if other.testNull then .isNull else .alwaysFalse)

end IsNull

def mergeGeneric (generic this : BigintFilter) : Except String BigintFilter :=
  match generic with
  | .alwaysTrue => AlwaysTrue.mergeWith this
  | .alwaysFalse => AlwaysFalse.mergeWith this
  | .isNull => IsNull.mergeWith this
  | _ => .error unreachable

def combineBigintRanges (ranges : List BigintRange) (nullAllowed : Bool) :
    Except String BigintFilter :=
  match ranges with
  | [] => .ok (nullOrFalse nullAllowed)
  | [range] => .ok (.bigintRange ⟨range.lower, range.upper, nullAllowed⟩)
  | _ => BigintMultiRange.create ranges nullAllowed

/-- The `while` loop of `combineRangesAndNegatedValues` for one range: the pieces between
    consecutive rejected values, and the start of the piece after the last one. -/
def rejectPieces (range : BigintRange) : List Int64 → Int64 → List BigintRange × Int64
  | [], start => ([], start)
  | reject :: rest, start =>
    let pieceEnd := reject - 1
    if start ≥ range.lower && pieceEnd < range.upper then
      let next := rejectPieces range rest (reject + 1)
      (if start ≤ pieceEnd then ⟨start, pieceEnd, false⟩ :: next.1 else next.1, next.2)
    else ([], start)

def combineRangesAndNegatedValues (ranges : List BigintRange) (rejects : List Int64)
    (nullAllowed : Bool) : Except String BigintFilter :=
  combineBigintRanges (ranges.flatMap fun range =>
      let walked := rejectPieces range (rejects.drop (lowerBound rejects range.lower)) range.lower
      let start := walked.2
      walked.1 ++ if start ≤ range.upper && start ≥ range.lower && range.upper ≤ range.upper
        then [⟨start, range.upper, false⟩] else [])
    nullAllowed

def mergeRejected : List Int64 → List Int64 → List Int64
  | [], second => second
  | first, [] => first
  | x :: xs, y :: ys =>
    let lo := min x y
    lo :: if lo = x ∧ lo = y then mergeRejected xs ys
      else if lo = x then mergeRejected xs (y :: ys)
      else mergeRejected (x :: xs) ys

def combineNegatedBigintLists (first second : List Int64) (nullAllowed : Bool) :
    Except String BigintFilter :=
  createNegatedBigintValues (mergeRejected first second) nullAllowed

def combineNegatedRangeOnIntRanges (negatedLower negatedUpper : Int64)
    (ranges : List BigintRange) (nullAllowed : Bool) : Except String BigintFilter :=
  combineBigintRanges (ranges.flatMap fun range =>
      if negatedUpper < range.lower || range.upper < negatedLower then
        [⟨range.lower, range.upper, false⟩]
      else
        (if range.lower < negatedLower then [⟨range.lower, negatedLower - 1, false⟩] else []) ++
          if negatedUpper < range.upper then [⟨negatedUpper + 1, range.upper, false⟩] else [])
    nullAllowed

def negatedValuesToRanges (values : List Int64) : List BigintRange :=
  match values with
  | [] => []
  | first :: _ =>
    let last := values.getLast?.getD first
    (if first > Int64.minValue then [⟨Int64.minValue, first - 1, false⟩] else []) ++
      ((values.zip values.tail).filterMap fun pair =>
        if pair.1 + 1 ≤ pair.2 - 1 then some ⟨pair.1 + 1, pair.2 - 1, false⟩ else none) ++
      if last < Int64.maxValue then [⟨last + 1, Int64.maxValue, false⟩] else []

/-- The values of `for (auto i = min; i <= max; ++i)`: the loop only leaves when `++i`
    passes `max`, so it never ends normally for `max = INT64_MAX`. -/
def int64Span (min max : Int64) : Except String (List Int64) :=
  if max = Int64.maxValue then .error "signed overflow of ++i: the loop does not end"
  else .ok ((List.range (max.toInt - min.toInt + 1).toNat).map (min + Int64.ofNat ·))

namespace BigintRange

def mergeWithRange (range other : BigintRange) : BigintFilter :=
  let bothNullAllowed := range.nullAllowed && other.nullAllowed
  let lower := max range.lower other.lower
  let upper := min range.upper other.upper
  if lower ≤ upper then .bigintRange ⟨lower, upper, bothNullAllowed⟩
  else nullOrFalse bothNullAllowed

end BigintRange

namespace BigintValuesUsingBitmask

def mergeWithBounds (filter : BigintValuesUsingBitmask) (min max : Int64) (other : BigintFilter) :
    Except String BigintFilter := do
  let span ← int64Span min max
  createBigintValues (span.filter fun i =>
      filter.bitmask.getD (bitIndex i filter.min) false && other.testInt64 i)
    (filter.nullAllowed && other.testNull)

def mergeWith (filter : BigintValuesUsingBitmask) (other : BigintFilter) :
    Except String BigintFilter :=
  let this := BigintFilter.bigintValuesUsingBitmask filter
  match other with
  | .alwaysTrue | .alwaysFalse | .isNull => mergeGeneric other this
  | .isNotNull => .ok (.bigintValuesUsingBitmask { filter with nullAllowed := false })
  | .bigintRange range =>
    filter.mergeWithBounds (Max.max filter.min range.lower) (Min.min filter.max range.upper) other
  | .bigintValuesUsingHashTable values =>
    filter.mergeWithBounds (Max.max filter.min values.min) (Min.min filter.max values.max) other
  | .bigintValuesUsingBitmask values =>
    filter.mergeWithBounds (Max.max filter.min values.min) (Min.min filter.max values.max) other
  | .bigintMultiRange ranges nullAllowed => do
    let kept ← ranges.mapM fun range => do
      let span ← int64Span (Max.max filter.min range.lower) (Min.min filter.max range.upper)
      pure (span.filter fun i => filter.bitmask.getD (bitIndex i filter.min) false &&
        range.testInt64 i)
    createBigintValues kept.flatten (filter.nullAllowed && nullAllowed)
  | .negatedBigintRange .. | .negatedBigintValuesUsingBitmask .. |
    .negatedBigintValuesUsingHashTable .. => filter.mergeWithBounds filter.min filter.max other
  | .boolValue .. => .error unreachable

end BigintValuesUsingBitmask

namespace BigintValuesUsingHashTable

def mergeWithBounds (filter : BigintValuesUsingHashTable) (min max : Int64) (other : BigintFilter) :
    Except String BigintFilter :=
  let bothNullAllowed := filter.nullAllowed && other.testNull
  if max < min then .ok (nullOrFalse bothNullAllowed)
  else if max = min then
    .ok (if filter.testInt64 min && other.testInt64 min then .bigintRange ⟨min, min, bothNullAllowed⟩
      else nullOrFalse bothNullAllowed)
  else
    -- every slot of `hashTable_`, the padding copies of the last slot included
    createBigintValues
      ((if filter.containsEmptyMarker && other.testInt64 kEmptyMarker then [kEmptyMarker] else []) ++
        filter.hashTable.filter fun v => v != kEmptyMarker && other.testInt64 v)
      bothNullAllowed

def mergeWith (filter : BigintValuesUsingHashTable) (other : BigintFilter) :
    Except String BigintFilter :=
  let this := BigintFilter.bigintValuesUsingHashTable filter
  match other with
  | .alwaysTrue | .alwaysFalse | .isNull => mergeGeneric other this
  | .isNotNull => .ok (.bigintValuesUsingHashTable { filter with nullAllowed := false })
  | .bigintRange range =>
    filter.mergeWithBounds (Max.max filter.min range.lower) (Min.min filter.max range.upper) other
  | .bigintValuesUsingHashTable values =>
    filter.mergeWithBounds (Max.max filter.min values.min) (Min.min filter.max values.max) other
  | .bigintValuesUsingBitmask values => values.mergeWith this
  | .bigintMultiRange ranges nullAllowed =>
    createBigintValues
      ((if filter.containsEmptyMarker && other.testInt64 kEmptyMarker then [kEmptyMarker] else []) ++
        ranges.flatMap fun range =>
          if Max.max filter.min range.lower ≤ Min.min filter.max range.upper then
            filter.values.filter range.testInt64
          else [])
      (filter.nullAllowed && nullAllowed)
  | .negatedBigintRange .. | .negatedBigintValuesUsingBitmask .. |
    .negatedBigintValuesUsingHashTable .. => filter.mergeWithBounds filter.min filter.max other
  | .boolValue .. => .error unreachable

end BigintValuesUsingHashTable

namespace NegatedBigintRange

def mergeOrdered (small big : BigintRange) (bothNullAllowed : Bool) :
    Except String BigintFilter :=
  if small.upper + 1 < big.lower then
    combineBigintRanges
      ((if small.lower > Int64.minValue then [⟨Int64.minValue, small.lower - 1, false⟩] else []) ++
        (if small.upper < Int64.maxValue && big.lower > Int64.minValue then
          [⟨small.upper + 1, big.lower - 1, false⟩] else []) ++
        if big.upper < Int64.maxValue then [⟨big.upper + 1, Int64.maxValue, false⟩] else [])
      bothNullAllowed
  else .ok (create small.lower (Max.max small.upper big.upper) bothNullAllowed)

def mergeWith (nonNegated : BigintRange) (nullAllowed : Bool) (other : BigintFilter) :
    Except String BigintFilter :=
  let this := BigintFilter.negatedBigintRange nonNegated nullAllowed
  let bothNullAllowed := nullAllowed && other.testNull
  match other with
  | .alwaysTrue | .alwaysFalse | .isNull => mergeGeneric other this
  | .isNotNull => .ok (create nonNegated.lower nonNegated.upper false)
  | .bigintRange range =>
    combineNegatedRangeOnIntRanges nonNegated.lower nonNegated.upper
      [⟨range.lower, range.upper, false⟩] bothNullAllowed
  | .negatedBigintRange otherNonNegated _ =>
    if nonNegated.lower > otherNonNegated.lower then
      mergeOrdered otherNonNegated nonNegated bothNullAllowed
    else mergeOrdered nonNegated otherNonNegated bothNullAllowed
  | .bigintMultiRange ranges _ =>
    combineNegatedRangeOnIntRanges nonNegated.lower nonNegated.upper ranges bothNullAllowed
  | .bigintValuesUsingHashTable values => values.mergeWith this
  | .bigintValuesUsingBitmask values => values.mergeWith this
  | .negatedBigintValuesUsingHashTable .. | .negatedBigintValuesUsingBitmask .. =>
    if nonNegated.isSingleValue then
      createNegatedBigintValues
        (other.rejectedValues ++ if other.testInt64 nonNegated.lower then [nonNegated.lower] else [])
        bothNullAllowed
    else
      combineNegatedRangeOnIntRanges nonNegated.lower nonNegated.upper
        (negatedValuesToRanges other.rejectedValues) bothNullAllowed
  | .boolValue .. => .error unreachable

end NegatedBigintRange

namespace BigintRange

def mergeWith (range : BigintRange) (other : BigintFilter) : Except String BigintFilter :=
  let this := BigintFilter.bigintRange range
  match other with
  | .alwaysTrue | .alwaysFalse | .isNull => mergeGeneric other this
  | .isNotNull => .ok (.bigintRange ⟨range.lower, range.upper, false⟩)
  | .bigintRange otherRange => .ok (range.mergeWithRange otherRange)
  | .negatedBigintRange nonNegated nullAllowed => NegatedBigintRange.mergeWith nonNegated nullAllowed this
  | .bigintValuesUsingBitmask values => values.mergeWith this
  | .bigintValuesUsingHashTable values => values.mergeWith this
  | .bigintMultiRange ranges nullAllowed => do
    let newRanges ← ranges.mapM fun otherRange =>
      match range.mergeWithRange otherRange with
      | .bigintRange merged => .ok [merged]
      | .alwaysFalse => .ok []
      | _ => .error "merged->kind() == FilterKind::kAlwaysFalse"
    combineBigintRanges newRanges.flatten (range.nullAllowed && nullAllowed)
  | .negatedBigintValuesUsingBitmask _ nullAllowed |
    .negatedBigintValuesUsingHashTable _ nullAllowed =>
    let bothNullAllowed := range.nullAllowed && nullAllowed
    if !other.testInt64Range range.lower range.upper false then .ok (nullOrFalse bothNullAllowed)
    else combineRangesAndNegatedValues [⟨range.lower, range.upper, false⟩] other.rejectedValues
      bothNullAllowed
  | .boolValue .. => .error unreachable

end BigintRange

namespace BigintMultiRange

def mergeWith (ranges : List BigintRange) (nullAllowed : Bool) (other : BigintFilter) :
    Except String BigintFilter :=
  let this := BigintFilter.bigintMultiRange ranges nullAllowed
  match other with
  | .alwaysTrue | .alwaysFalse | .isNull => mergeGeneric other this
  | .isNotNull => create ranges false
  | .bigintRange range => range.mergeWith this
  | .negatedBigintRange nonNegated otherNullAllowed =>
    NegatedBigintRange.mergeWith nonNegated otherNullAllowed this
  | .bigintValuesUsingBitmask values => values.mergeWith this
  | .bigintValuesUsingHashTable values => values.mergeWith this
  | .bigintMultiRange _ otherNullAllowed => do
    let newRanges ← ranges.mapM fun range => do
      match ← range.mergeWith other with
      | .bigintRange merged => pure [merged]
      | .bigintMultiRange merged _ => pure merged
      | .alwaysFalse => pure []
      | _ => .error "merged->kind() == FilterKind::kAlwaysFalse"
    let bothNullAllowed := nullAllowed && otherNullAllowed
    match newRanges.flatten with
    | [] => .ok (nullOrFalse bothNullAllowed)
    | [range] => .ok (.bigintRange ⟨range.lower, range.upper, bothNullAllowed⟩)
    | flat => create flat bothNullAllowed
  | .negatedBigintValuesUsingHashTable _ otherNullAllowed |
    .negatedBigintValuesUsingBitmask _ otherNullAllowed =>
    combineRangesAndNegatedValues ranges other.rejectedValues (nullAllowed && otherNullAllowed)
  | .boolValue .. => .error unreachable

end BigintMultiRange

namespace NegatedBigintValuesUsingBitmask

def mergeWith (nonNegated : BigintValuesUsingBitmask) (nullAllowed : Bool) (other : BigintFilter) :
    Except String BigintFilter :=
  let this := BigintFilter.negatedBigintValuesUsingBitmask nonNegated nullAllowed
  match other with
  | .alwaysTrue | .alwaysFalse | .isNull => mergeGeneric other this
  | .isNotNull => .ok (.negatedBigintValuesUsingBitmask nonNegated false)
  | .bigintValuesUsingHashTable values => values.mergeWith this
  | .bigintValuesUsingBitmask values => values.mergeWith this
  | .bigintRange range => range.mergeWith this
  | .negatedBigintRange otherNonNegated otherNullAllowed =>
    NegatedBigintRange.mergeWith otherNonNegated otherNullAllowed this
  | .bigintMultiRange ranges otherNullAllowed => BigintMultiRange.mergeWith ranges otherNullAllowed this
  | .negatedBigintValuesUsingHashTable _ otherNullAllowed |
    .negatedBigintValuesUsingBitmask _ otherNullAllowed =>
    combineNegatedBigintLists nonNegated.values other.rejectedValues (nullAllowed && otherNullAllowed)
  | .boolValue .. => .error unreachable

end NegatedBigintValuesUsingBitmask

namespace NegatedBigintValuesUsingHashTable

def mergeWith (nonNegated : BigintValuesUsingHashTable) (nullAllowed : Bool)
    (other : BigintFilter) : Except String BigintFilter :=
  let this := BigintFilter.negatedBigintValuesUsingHashTable nonNegated nullAllowed
  match other with
  | .alwaysTrue | .alwaysFalse | .isNull => mergeGeneric other this
  | .isNotNull => .ok (.negatedBigintValuesUsingHashTable nonNegated false)
  | .bigintValuesUsingHashTable values => values.mergeWith this
  | .bigintValuesUsingBitmask values => values.mergeWith this
  | .bigintRange range => range.mergeWith this
  | .bigintMultiRange ranges otherNullAllowed => BigintMultiRange.mergeWith ranges otherNullAllowed this
  | .negatedBigintValuesUsingHashTable otherNonNegated otherNullAllowed =>
    combineNegatedBigintLists nonNegated.values otherNonNegated.values (nullAllowed && otherNullAllowed)
  | .negatedBigintRange otherNonNegated otherNullAllowed =>
    NegatedBigintRange.mergeWith otherNonNegated otherNullAllowed this
  | .negatedBigintValuesUsingBitmask otherNonNegated otherNullAllowed =>
    NegatedBigintValuesUsingBitmask.mergeWith otherNonNegated otherNullAllowed this
  | .boolValue .. => .error unreachable

end NegatedBigintValuesUsingHashTable

namespace BoolValue

def mergeWith (value nullAllowed : Bool) (other : BigintFilter) : Except String BigintFilter :=
  match other with
  | .alwaysTrue | .alwaysFalse | .isNull => mergeGeneric other (.boolValue value nullAllowed)
  | .isNotNull => .ok (.boolValue value false)
  | .boolValue otherValue otherNullAllowed =>
    let bothNullAllowed := nullAllowed && otherNullAllowed
    .ok (if otherValue == value then .boolValue value bothNullAllowed
      else nullOrFalse bothNullAllowed)
  | _ => .error unreachable

end BoolValue

namespace IsNotNull

def mergeWith (other : BigintFilter) : Except String BigintFilter :=
  match other with
  | .alwaysTrue | .isNotNull => .ok .isNotNull
  | .alwaysFalse | .isNull => .ok .alwaysFalse
  | .boolValue value nullAllowed => BoolValue.mergeWith value nullAllowed .isNotNull
  | .bigintRange range => range.mergeWith .isNotNull
  | .negatedBigintRange nonNegated nullAllowed =>
    NegatedBigintRange.mergeWith nonNegated nullAllowed .isNotNull
  | .bigintValuesUsingHashTable values => values.mergeWith .isNotNull
  | .bigintValuesUsingBitmask values => values.mergeWith .isNotNull
  | .negatedBigintValuesUsingHashTable nonNegated nullAllowed =>
    NegatedBigintValuesUsingHashTable.mergeWith nonNegated nullAllowed .isNotNull
  | .negatedBigintValuesUsingBitmask nonNegated nullAllowed =>
    NegatedBigintValuesUsingBitmask.mergeWith nonNegated nullAllowed .isNotNull
  | .bigintMultiRange ranges nullAllowed => BigintMultiRange.mergeWith ranges nullAllowed .isNotNull

end IsNotNull

def BigintFilter.mergeWith : BigintFilter → BigintFilter → Except String BigintFilter
  | .alwaysFalse, other => AlwaysFalse.mergeWith other
  | .alwaysTrue, other => AlwaysTrue.mergeWith other
  | .isNull, other => IsNull.mergeWith other
  | .isNotNull, other => IsNotNull.mergeWith other
  | .boolValue value nullAllowed, other => BoolValue.mergeWith value nullAllowed other
  | .bigintRange range, other => range.mergeWith other
  | .negatedBigintRange nonNegated nullAllowed, other =>
    NegatedBigintRange.mergeWith nonNegated nullAllowed other
  | .bigintValuesUsingHashTable values, other => values.mergeWith other
  | .bigintValuesUsingBitmask values, other => values.mergeWith other
  | .negatedBigintValuesUsingHashTable nonNegated nullAllowed, other =>
    NegatedBigintValuesUsingHashTable.mergeWith nonNegated nullAllowed other
  | .negatedBigintValuesUsingBitmask nonNegated nullAllowed, other =>
    NegatedBigintValuesUsingBitmask.mergeWith nonNegated nullAllowed other
  | .bigintMultiRange ranges nullAllowed, other => BigintMultiRange.mergeWith ranges nullAllowed other

/-- The four padding slots of a hash table repeat its last slot, and
    `mergeWith(min, max, other)` keeps every slot: merged with `[0, 8]`, the IN list
    `[3, 8, 10000]` hands `createBigintValues` the list `[8, 3, 3, 3, 3, 3]`, whose six entries
    spanning `[3, 8]` pass the contiguity test as one block. -/
theorem mergeWith_padding_duplicates_widen :
    (createBigintValues [3, 8, 10000] false).bind
        (·.mergeWith (.bigintRange ⟨0, 8, false⟩)) = .ok (.bigintRange ⟨3, 8, false⟩) ∧
      (createBigintValues [3, 8, 10000] false).map (·.testInt64 5) = .ok false := by
  decide

end Velox.Common
