import Velox.Type.Timestamp
import Velox.Library.LittleEndian

namespace Velox

/-- A type of `velox/type/Type.h`: the scalar kinds the row formats write, the decimals (a
    `BIGINT` or `HUGEINT` underneath) and the three nested kinds. -/
inductive Ty where
  | boolean
  | tinyint
  | smallint
  | integer
  | bigint
  | hugeint
  | real
  | double
  | timestamp
  | varchar
  | varbinary
  | unknown
  | shortDecimal (precision scale : Nat)
  | longDecimal (precision scale : Nat)
  | array (elementType : Ty)
  | map (keyType valueType : Ty)
  | row (children : List Ty)
deriving Repr

namespace Ty

def isFixedWidth : Ty → Bool
  | varchar | varbinary | array _ | map _ _ | row _ => false
  | _ => true

def isLongDecimal : Ty → Bool
  | longDecimal _ _ => true
  | _ => false

def isString : Ty → Bool
  | varchar | varbinary => true
  | _ => false

/-- `cppSizeInBytes`: `sizeof` of the native type, 0 for `UNKNOWN` (the others throw). -/
def cppSizeInBytes : Ty → Nat
  | boolean | tinyint => 1
  | smallint => 2
  | integer | real => 4
  | bigint | double | shortDecimal _ _ => 8
  | hugeint | longDecimal _ _ | timestamp => 16
  | _ => 0

end Ty

/-- A value of a vector at one row, through whatever encoding the vector has. `REAL` and
    `DOUBLE` values are their bits, which is what the formats copy. -/
inductive Variant where
  | null
  | boolean (value : Bool)
  | tinyint (value : Int8)
  | smallint (value : Int16)
  | integer (value : Int32)
  | bigint (value : Int64)
  | hugeint (value : BitVec 128)
  | real (bits : UInt32)
  | double (bits : UInt64)
  | timestamp (value : Timestamp)
  | string (value : List UInt8)
  | array (elements : List Variant)
  | map (keys values : List Variant)
  | row (children : List Variant)
deriving Repr

namespace Variant

open LittleEndian

def isNull : Variant → Bool
  | null => true
  | _ => false

/-- The bytes of a fixed-width value in a flat vector's buffer (little-endian), which a
    `memcpy` of `cppSizeInBytes` bytes copies; `none` for the kinds that are not copied so. -/
def rawBytes : Ty → Variant → Option (List UInt8)
  | .tinyint, tinyint value => some (toBytes value.toUInt8.toNat 1)
  | .smallint, smallint value => some (toBytes value.toUInt16.toNat 2)
  | .integer, integer value => some (toBytes value.toUInt32.toNat 4)
  | .bigint, bigint value | .shortDecimal _ _, bigint value => some (toBytes value.toUInt64.toNat 8)
  | .hugeint, hugeint value | .longDecimal _ _, hugeint value => some (toBytes value.toNat 16)
  | .real, real bits => some (toBytes bits.toNat 4)
  | .double, double bits => some (toBytes bits.toNat 8)
  | _, _ => none

theorem length_of_rawBytes {ty : Ty} {value : Variant} {bytes : List UInt8}
    (raw : rawBytes ty value = some bytes) : bytes.length = ty.cppSizeInBytes := by
  unfold rawBytes at raw
  split at raw <;> cases raw <;> simp [Ty.cppSizeInBytes]

end Variant

end Velox
