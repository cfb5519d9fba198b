import Velox.Type.Filter.BigintMerge
import Velox.Library.ByteString

namespace Velox.Common

open ByteString

/-- `compareRanges`: the bytes up to the shorter length, then the lengths, as
    `std::string::compare` compares them, which the merge uses. -/
def compareRanges (lhs rhs : List UInt8) : Int :=
  ByteString.compare lhs rhs

structure BytesRange where
  lower : List UInt8
  lowerUnbounded : Bool
  lowerExclusive : Bool
  upper : List UInt8
  upperUnbounded : Bool
  upperExclusive : Bool
  nullAllowed : Bool
  bounded : (!lowerUnbounded || !upperUnbounded) = true
deriving DecidableEq, Repr

namespace BytesRange

def create (lower : List UInt8) (lowerUnbounded lowerExclusive : Bool) (upper : List UInt8)
    (upperUnbounded upperExclusive nullAllowed : Bool) : Except String BytesRange :=
  if bounded : (!lowerUnbounded || !upperUnbounded) = true then
    .ok ⟨lower, lowerUnbounded, lowerExclusive, upper, upperUnbounded, upperExclusive,
      nullAllowed, bounded⟩
  else .error "!lowerUnbounded_ || !upperUnbounded_"

def singleValue (range : BytesRange) : Bool :=
  !range.lowerExclusive && !range.upperExclusive && !range.lowerUnbounded &&
    !range.upperUnbounded && range.lower == range.upper

def testBytes (range : BytesRange) (value : List UInt8) : Bool :=
  if value.length = 0 then
    -- the empty string is taken to be the smallest string
    if range.lowerUnbounded then !range.upper.isEmpty || !range.upperExclusive
    else range.lower.isEmpty && !range.lowerExclusive
  else if range.singleValue then
    if value.length ≠ range.lower.length then false else memcmp value range.lower == 0
  else if !range.lowerUnbounded &&
      (compareRanges value range.lower < 0 ||
        (range.lowerExclusive && compareRanges value range.lower == 0)) then false
  else if !range.upperUnbounded then
    compareRanges value range.upper < 0 ||
      (!range.upperExclusive && compareRanges value range.upper == 0)
  else true

end BytesRange

inductive BytesFilter where
  | alwaysFalse
  | alwaysTrue
  | isNull
  | isNotNull
  | bytesRange (range : BytesRange)
deriving DecidableEq, Repr

namespace BytesFilter

def testNull : BytesFilter → Bool
  | alwaysFalse => false
  | alwaysTrue => true
  | isNull => true
  | isNotNull => false
  | bytesRange range => range.nullAllowed

def testBytes : BytesFilter → List UInt8 → Bool
  | alwaysFalse, _ => false
  | alwaysTrue, _ => true
  | isNull, _ => false
  | isNotNull, _ => true
  | bytesRange range, value => range.testBytes value

def nullOrFalse (nullAllowed : Bool) : BytesFilter :=
  if nullAllowed then isNull else alwaysFalse

end BytesFilter

def mergeExclusive (compareResult : Int) (left right : Bool) : Bool :=
  if compareResult = 0 then left || right else if compareResult < 0 then left else right

namespace BytesRange

/-- The `kBytesRange` case of `BytesRange::mergeWith`: the larger lower bound, the smaller
    upper bound, and `nullOrFalse` when nothing is left between them. -/
def mergeRanges (range other : BytesRange) : Except String BytesFilter :=
  let bothNullAllowed := range.nullAllowed && other.nullAllowed
  let (lowerUnbounded, lowerExclusive, lower) :=
    if range.lowerUnbounded then (other.lowerUnbounded, other.lowerExclusive, other.lower)
    else if other.lowerUnbounded then (range.lowerUnbounded, range.lowerExclusive, range.lower)
    else
      let compare := compareRanges range.lower other.lower
      (false, mergeExclusive (-compare) range.lowerExclusive other.lowerExclusive,
        if compare < 0 then other.lower else range.lower)
  let (upperUnbounded, upperExclusive, upper) :=
    if range.upperUnbounded then (other.upperUnbounded, other.upperExclusive, other.upper)
    else if other.upperUnbounded then (range.upperUnbounded, range.upperExclusive, range.upper)
    else
      let compare := compareRanges range.upper other.upper
      (false, mergeExclusive compare range.upperExclusive other.upperExclusive,
        if compare < 0 then range.upper else other.upper)
  if !lowerUnbounded && !upperUnbounded &&
      (compareRanges lower upper > 0 || (lower == upper && (lowerExclusive || upperExclusive)))
  then .ok (BytesFilter.nullOrFalse bothNullAllowed)
  else (create lower lowerUnbounded lowerExclusive upper upperUnbounded upperExclusive
    bothNullAllowed).map .bytesRange

def mergeWith (range : BytesRange) (other : BytesFilter) : Except String BytesFilter :=
  match other with
  | .alwaysTrue => .ok (.bytesRange range)
  | .alwaysFalse => .ok .alwaysFalse
  | .isNull => .ok (if range.nullAllowed then .isNull else .alwaysFalse)
  | .isNotNull => .ok (.bytesRange { range with nullAllowed := false })
  | .bytesRange other => range.mergeRanges other

end BytesRange

namespace BytesFilter

def mergeWith : BytesFilter → BytesFilter → Except String BytesFilter
  | alwaysTrue, other => .ok other
  | alwaysFalse, _ => .ok alwaysFalse
  | isNull, other => .ok (if other.testNull then isNull else alwaysFalse)
  | isNotNull, alwaysTrue | isNotNull, isNotNull => .ok isNotNull
  | isNotNull, alwaysFalse | isNotNull, isNull => .ok alwaysFalse
  | isNotNull, bytesRange range => range.mergeWith isNotNull
  | bytesRange range, other => range.mergeWith other

end BytesFilter

/-- `["", "")` passes the empty string, as `testBytes` looks only at the lower bound there, but
    merged with itself it becomes `AlwaysFalse`. -/
theorem merge_empty_range_rejects_empty_string :
    ∃ range, BytesRange.create [] false false [] false true false = .ok range ∧
      (BytesFilter.bytesRange range).testBytes [] = true ∧
      (BytesFilter.bytesRange range).mergeWith (.bytesRange range) = .ok .alwaysFalse ∧
      BytesFilter.alwaysFalse.testBytes [] = false :=
  ⟨_, rfl, by decide, by decide, rfl⟩

end Velox.Common
