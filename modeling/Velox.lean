import Velox.Library.Int64Order
import Velox.Library.LowerBound
import Velox.Library.Gregorian
import Velox.Library.DecimalDigits
import Velox.Library.LinearProbing
import Velox.Library.LittleEndian
import Velox.Library.Varint
import Velox.Library.ByteString
import Velox.Library.BigEndian
import Velox.Library.BinaryFloat
import Velox.Library.Aggregation
import Velox.Library.Bitmap
import Velox.Library.ExceptMonad
import Velox.Library.WordConversions
import Velox.Type.Filter.Bigint
import Velox.Type.Filter.BigintHashTable
import Velox.Type.Filter.BigintMerge
import Velox.Type.Filter.Bytes
import Velox.Type.Filter.BytesPruning
import Velox.Type.DecimalUtil
import Velox.Type.Timestamp
import Velox.Type.TimestampConversion
import Velox.Type.Variant
import Velox.Functions.Lib.Aggregates.DecimalAggregate
import Velox.Common.Encode.Coding
import Velox.Dwio.Dwrf.Common.IntEncoder
import Velox.Dwio.Common.IntDecoder
import Velox.Dwio.Dwrf.Common.RLEv1
import Velox.Dwio.Dwrf.Common.RLEv1Format
import Velox.Dwio.Dwrf.Common.RLEv1RoundTrip
import Velox.Exec.PrefixSort
import Velox.Exec.PrefixSortEncoder
import Velox.Exec.TreeOfLosers
import Velox.Expression.BooleanMix
import Velox.Expression.ConjunctExpr
import Velox.Expression.SwitchExpr
import Velox.Expression.CastExpr
import Velox.Row.CompactRow
import Velox.Row.CompactRowDeserializer
import Velox.Row.CompactRowRoundTrip
import Velox.Row.UnsafeRowFast
import Velox.Row.UnsafeRowDeserializers
import Velox.Serializers.PrestoTimestamps
import Velox.Library.EStateTriple
import Velox.Common.Memory.MemoryPool
import Velox.Common.Memory.SharedArbitrator
import Velox.Common.Memory.CapacityConservation
import Velox.Functions.Lib.LikeSemantics
import Velox.Functions.Lib.Like
import Velox.Functions.Lib.LikeMatchers
import Velox.Library.MachineInt
import Velox.Common.Encode.Base64
import Velox.Common.Encode.Base64Decode
import Velox.Type.DecimalRounding
import Velox.Type.DecimalRescale
import Velox.Functions.Lib.Aggregates.DecimalAverage
import Velox.Functions.Prestosql.DecimalFunctions
import Velox.Type.Filter.BigintValues
import Velox.Type.Filter.BigintLanes
import Velox.Type.Filter.BigintSerde
import Velox.Common.Hyperloglog.DenseHll
import Velox.Type.Filter.BigintMultiRange
import Velox.Library.Utf8
import Velox.Functions.Lib.Utf8Utils
import Velox.Functions.Lib.StringCore
import Velox.Library.Ragged
import Velox.Exec.Unnest
import Velox.Exec.UnnestRange
import Velox.Exec.UnnestOutput
import Velox.Library.Grouping
import Velox.Exec.StreamingAggregation
import Velox.Exec.StreamingAggregationGroups
import Velox.Exec.StreamingAggregationRun
import Velox.Library.Tournament
import Velox.Exec.TreeOfLosersMerge
import Velox.Exec.MergeArray
import Velox.Exec.TreeOfLosersEquals
import Velox.Library.TieGroups
import Velox.Exec.GroupingSetMerge
import Velox.Exec.OutputBuffer
import Velox.Exec.OutputBufferDelivery
import Velox.Vector.ComplexVector
