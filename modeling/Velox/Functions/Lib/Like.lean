import Velox.Functions.Lib.LikeSemantics
import Velox.Library.ByteString

-- LIKE with a constant pattern and escape (`makeLike`, `determinePatternKind` and
-- `OptimizedLike` of `velox/functions/lib/Re2Functions.cpp`). Strings are byte lists; a matcher
-- returns `none` where the source would read a byte outside the input string.

namespace Velox.Functions.Like

/-- `unicodeCharLength`: `utf8proc_char_length` of a lead byte, or 1 for a byte that starts no
    character. -/
def unicodeCharLength (byte : UInt8) : Nat :=
  if byte ≤ 127 then 1
  else if 192 ≤ byte ∧ byte ≤ 223 then 2
  else if 224 ≤ byte ∧ byte ≤ 239 then 3
  else if 240 ≤ byte ∧ byte ≤ 247 then 4
  else 1

inductive SubPatternKind where
  | kSingleCharWildcard
  | kAnyCharsWildcard
  | kLiteralString
  deriving DecidableEq, Repr

structure SubPatternMetadata where
  kind : SubPatternKind
  start : Nat
  length : Nat
  deriving DecidableEq, Repr

inductive PatternKind where
  | kExactlyN
  | kAtLeastN
  | kFixed
  | kRelaxedFixed
  | kPrefix
  | kRelaxedPrefix
  | kSuffix
  | kRelaxedSuffix
  | kSubstring
  | kSubstrings
  | kGeneric
  deriving DecidableEq, Repr

structure PatternMetadata where
  patternKind : PatternKind
  length : Nat
  fixedPattern : List UInt8
  subPatterns : List SubPatternMetadata
  substrings : List (List UInt8)
  deriving DecidableEq, Repr

namespace PatternMetadata

def generic : PatternMetadata := ⟨.kGeneric, 0, [], [], []⟩
def atLeastN (length : Nat) : PatternMetadata := ⟨.kAtLeastN, length, [], [], []⟩
def exactlyN (length : Nat) : PatternMetadata := ⟨.kExactlyN, length, [], [], []⟩
def fixed (fixedPattern : List UInt8) : PatternMetadata :=
  ⟨.kFixed, fixedPattern.length, fixedPattern, [], []⟩
def relaxedFixed (fixedPattern : List UInt8) (subPatterns : List SubPatternMetadata) :
    PatternMetadata :=
  ⟨.kRelaxedFixed, fixedPattern.length, fixedPattern, subPatterns, []⟩
def prefixPattern (fixedPattern : List UInt8) : PatternMetadata :=
  ⟨.kPrefix, fixedPattern.length, fixedPattern, [], []⟩
def relaxedPrefix (fixedPattern : List UInt8) (subPatterns : List SubPatternMetadata) :
    PatternMetadata :=
  ⟨.kRelaxedPrefix, fixedPattern.length, fixedPattern, subPatterns, []⟩
def suffix (fixedPattern : List UInt8) : PatternMetadata :=
  ⟨.kSuffix, fixedPattern.length, fixedPattern, [], []⟩
def relaxedSuffix (fixedPattern : List UInt8) (subPatterns : List SubPatternMetadata) :
    PatternMetadata :=
  ⟨.kRelaxedSuffix, fixedPattern.length, fixedPattern, subPatterns, []⟩
def substring (fixedPattern : List UInt8) : PatternMetadata :=
  ⟨.kSubstring, fixedPattern.length, fixedPattern, [], []⟩
def ofSubstrings (substrings : List (List UInt8)) : PatternMetadata :=
  ⟨.kSubstrings, 0, [], [], substrings⟩

/-- `parseSubstrings`: a pattern that fully matches `(%+[^%_#\\]+)+%+` gives the runs between
    its `%`s, any other pattern none. -/
def parseSubstrings (pattern : List UInt8) : List (List UInt8) :=
  -- the runs between the `%`s, the first and last of them empty when the pattern starts and
  -- ends with `%`
  let runs := pattern.foldr (fun byte (run, runs) =>
    if byte = 37 then ([], run :: runs) else (byte :: run, runs)) ([], [])
  let runs := runs.1 :: runs.2
  if pattern.head? = some 37 ∧ pattern.getLast? = some 37 ∧ runs.any (· ≠ []) ∧
      runs.all (·.all fun byte => byte ≠ 95 ∧ byte ≠ 35 ∧ byte ≠ 92)
  then runs.filter (· ≠ [])
  else []

end PatternMetadata

/-! ## Parsing the pattern -/

inductive CharKind where
  | kAnyCharsWildcard
  | kSingleCharWildcard
  | kNormal
  deriving DecidableEq, Repr

/-- `PatternStringIterator::charAt` under its `VELOX_DCHECK`. -/
def charAt (pattern : List UInt8) (index : Nat) : Except String UInt8 :=
  match pattern[index]? with
  | some char => .ok char
  | none => .error "index < pattern_.size()"

/-- `PatternStringIterator::next` from `nextStart`: the kind of the next character, its bytes
    as `current()` gives them, and where the character after it starts; `none` at the end. -/
def next (pattern : List UInt8) (escapeChar : Option UInt8) (nextStart : Nat) :
    Except String (Option (CharKind × List UInt8 × Nat)) := do
  if nextStart = pattern.length then return none
  let currentChar ← charAt pattern nextStart
  if some currentChar = escapeChar then
    if nextStart + 1 < pattern.length then
      let escaped ← charAt pattern (nextStart + 1)
      if some escaped = escapeChar ∨ escaped = 95 ∨ escaped = 37 then
        return some (.kNormal, [escaped], nextStart + 2)
      else throw "Escape character must be followed by '%', '_' or the escape character itself: \x7b\x7d, escape \x7b\x7d"
    else throw "Escape character must be followed by '%', '_' or the escape character itself: \x7b\x7d, escape \x7b\x7d"
  else if currentChar = 95 then return some (.kSingleCharWildcard, [currentChar], nextStart + 1)
  else if currentChar = 37 then return some (.kAnyCharsWildcard, [currentChar], nextStart + 1)
  else
    -- a multi-byte character is taken whole; `current()` reads its bytes from the pattern
    let nextStart' := if currentChar &&& 0x80 ≠ 0
      then nextStart + unicodeCharLength currentChar else nextStart + 1
    return some (.kNormal, (pattern.drop nextStart).take (nextStart' - nextStart), nextStart')

/-- The characters the iterator yields from `nextStart` on. Each takes at least one byte, so
    `pattern.length + 1` rounds reach the end. -/
def patternChars (pattern : List UInt8) (escapeChar : Option UInt8) :
    Nat → Nat → Except String (List (CharKind × List UInt8))
  | 0, _ => .ok []
  | rounds + 1, nextStart => do
    match ← next pattern escapeChar nextStart with
    | none => pure []
    | some (kind, current, nextStart) =>
      return (kind, current) :: (← patternChars pattern escapeChar rounds nextStart)

def CharKind.subPatternKind : CharKind → SubPatternKind
  | .kSingleCharWildcard => .kSingleCharWildcard
  | .kAnyCharsWildcard => .kAnyCharsWildcard
  | .kNormal => .kLiteralString

structure ParseState where
  previousKind : Option SubPatternKind
  currentSubPatternStart : Nat
  cursor : Nat
  subPatternKinds : List SubPatternKind
  subPatternRanges : List (Nat × Nat)

/-- One round of the loop of `parsePattern`: a character of another kind closes the current
    sub-pattern. -/
def ParseState.add (state : ParseState) (currentKind : SubPatternKind) (size : Nat) :
    ParseState :=
  let previousKind := state.previousKind.getD currentKind
  if currentKind ≠ previousKind then
    { previousKind := currentKind
      currentSubPatternStart := state.cursor
      cursor := state.cursor + size
      subPatternKinds := state.subPatternKinds ++ [previousKind]
      subPatternRanges := state.subPatternRanges ++
        [(state.currentSubPatternStart, state.cursor - state.currentSubPatternStart)] }
  else { state with previousKind := some previousKind, cursor := state.cursor + size }

structure ParsedPattern where
  subPatternKinds : List SubPatternKind
  subPatternRanges : List (Nat × Nat)
  -- the pattern without its escape bytes, collected when there is an escape character
  unescaped : Option (List UInt8)

def parsePattern (pattern : List UInt8) (escapeChar : Option UInt8) :
    Except String ParsedPattern := do
  let chars ← patternChars pattern escapeChar (pattern.length + 1) 0
  let state := chars.foldl
    (fun (state : ParseState) (kind, current) => state.add kind.subPatternKind current.length)
    ⟨none, 0, 0, [], []⟩
  match state.previousKind with
  | none => throw "bad optional access"
  | some previousKind =>
    return {
      subPatternKinds := state.subPatternKinds ++ [previousKind]
      subPatternRanges := state.subPatternRanges ++
        [(state.currentSubPatternStart, state.cursor - state.currentSubPatternStart)]
      unescaped := escapeChar.map fun _ => (chars.map (·.2)).flatten }

/-! ## Choosing the pattern kind -/

structure SubPatternStats where
  count : Nat
  firstIndex : Option Nat
  lastIndex : Option Nat
  deriving DecidableEq, Repr

def SubPatternStats.update (stats : SubPatternStats) (index : Nat) : SubPatternStats :=
  ⟨stats.count + 1, stats.firstIndex.getD index, index⟩

def subPatternStats (subPatternKinds : List SubPatternKind) (kind : SubPatternKind) :
    SubPatternStats :=
  (subPatternKinds.zipIdx.filter (·.1 = kind)).foldl (fun stats (_, index) => stats.update index)
    ⟨0, none, none⟩

/-- `std::optional<size_t>` against a `size_t`: an empty optional is less than every value. -/
def optionLt : Option Nat → Nat → Bool
  | some value, bound => value < bound
  | none, _ => true

def ltOption (value : Nat) : Option Nat → Bool
  | some bound => value < bound
  | none => false

def isOptimizedLikeCandidate (any literal : SubPatternStats) (numSubPatterns : Nat)
    (firstPatternKind lastPatternKind : SubPatternKind) : Bool :=
  if literal.count = 0 then true
  else if any.count > 2 then false
  else if any.count = 2 ∧ (firstPatternKind ≠ .kAnyCharsWildcard ∨
      lastPatternKind ≠ .kAnyCharsWildcard) then false
  else if any.count = 1 ∧ ltOption 0 any.firstIndex ∧
      optionLt any.firstIndex (numSubPatterns - 1) then false
  else true

/-- `buildFixedSubPatterns` over the sub-patterns `[start, end)`, with the length of the fixed
    pattern they make. -/
def buildFixedSubPatterns (subPatternKinds : List SubPatternKind)
    (subPatternRanges : List (Nat × Nat)) (start stop : Nat) :
    Except String (List SubPatternMetadata × Nat) :=
  ((List.range' start (stop - start)).foldlM (fun (subPatterns, indexInFixedPattern) i => do
    let kind := subPatternKinds.getD i .kAnyCharsWildcard
    let length := (subPatternRanges.getD i (0, 0)).2
    if kind = .kLiteralString ∨ kind = .kSingleCharWildcard then
      pure (subPatterns ++ [⟨kind, indexInFixedPattern, length⟩], indexInFixedPattern + length)
    else throw "unreachable") ([], 0))

def fixedLength (subPatternKinds : List SubPatternKind)
    (subPatternRanges : List (Nat × Nat)) : Nat :=
  ((subPatternKinds.zip subPatternRanges).filter (·.1 ≠ .kAnyCharsWildcard)).foldl
    (fun result (_, range) => result + range.2) 0

def substr (pattern : List UInt8) (position length : Nat) : List UInt8 :=
  (pattern.drop position).take length

def determinePatternKind (pattern : List UInt8) (escapeChar : Option UInt8) :
    Except String PatternMetadata := do
  if pattern.isEmpty then return .fixed []
  let parsed ← parsePattern pattern escapeChar
  let unescapedPattern := parsed.unescaped.getD pattern
  let kinds := parsed.subPatternKinds
  let ranges := parsed.subPatternRanges
  let numSubPatterns := kinds.length
  let single := subPatternStats kinds .kSingleCharWildcard
  let any := subPatternStats kinds .kAnyCharsWildcard
  let literal := subPatternStats kinds .kLiteralString
  let firstSubPatternKind := kinds.getD 0 .kLiteralString
  let firstSubPatternLength := (ranges.getD 0 (0, 0)).2
  let lastSubPatternKind := kinds.getD (numSubPatterns - 1) .kLiteralString
  let lastSubPattern := ranges.getD (numSubPatterns - 1) (0, 0)
  if !isOptimizedLikeCandidate any literal numSubPatterns firstSubPatternKind
      lastSubPatternKind then
    return .generic
  if numSubPatterns = 1 then
    if firstSubPatternKind = .kSingleCharWildcard then return .exactlyN firstSubPatternLength
    else if firstSubPatternKind = .kAnyCharsWildcard then return .atLeastN 0
    return .fixed unescapedPattern
  if literal.count = 0 then return .atLeastN (fixedLength kinds ranges)
  if single.count = 0 ∧ literal.count = 1 ∧ any.count > 0 then
    if firstSubPatternKind = .kLiteralString then
      return .prefixPattern (substr unescapedPattern 0 firstSubPatternLength)
    else if lastSubPatternKind = .kLiteralString then
      return .suffix (substr unescapedPattern lastSubPattern.1 lastSubPattern.2)
    else if numSubPatterns = 3 ∧ firstSubPatternKind = .kAnyCharsWildcard ∧
        lastSubPatternKind = .kAnyCharsWildcard then
      let middle := ranges.getD 1 (0, 0)
      return .substring (substr unescapedPattern middle.1 middle.2)
  if any.count = 0 ∧ single.count > 0 then
    let (subPatterns, _) ← buildFixedSubPatterns kinds ranges 0 numSubPatterns
    return .relaxedFixed unescapedPattern subPatterns
  if single.count > 0 ∧ any.count > 0 then
    let first := min (literal.firstIndex.getD 0) (single.firstIndex.getD 0)
    let last := max (literal.lastIndex.getD 0) (single.lastIndex.getD 0)
    if ltOption last any.firstIndex then
      let (subPatterns, fixedLength) ← buildFixedSubPatterns kinds ranges first (last + 1)
      return .relaxedPrefix (substr unescapedPattern (ranges.getD first (0, 0)).1 fixedLength)
        subPatterns
    else if optionLt any.lastIndex first then
      let (subPatterns, fixedLength) ← buildFixedSubPatterns kinds ranges first (last + 1)
      return .relaxedSuffix (substr unescapedPattern (ranges.getD first (0, 0)).1 fixedLength)
        subPatterns
  return .generic

/-! ## The matchers -/

def matchExactPattern (input pattern : List UInt8) (length : Nat) : Bool :=
  if pattern.length > 0 then
    input.length = pattern.length && ByteString.memcmp (input.take length) (pattern.take length) = 0
  else input.length = 0

def matchRelaxedFixedForwardAscii (input : List UInt8) (patternMetadata : PatternMetadata)
    (start : Nat) : Bool × Int :=
  if input.length - start < patternMetadata.length then (false, -1)
  else if patternMetadata.subPatterns.any fun subPattern =>
      subPattern.kind = .kLiteralString ∧
        ByteString.memcmp (substr input (start + subPattern.start) subPattern.length)
          (substr patternMetadata.fixedPattern subPattern.start subPattern.length) ≠ 0
  then (false, -1)
  else (true, start + patternMetadata.length)

def matchForwardUnicode (input fixedPattern : List UInt8) :
    List SubPatternMetadata → Nat → Bool × Int
  | [], cursor => (true, cursor)
  | subPattern :: subPatterns, cursor =>
    if subPattern.kind = .kSingleCharWildcard then
      -- each wildcard skips one character, by the length its lead byte gives
      let skipped := (List.range subPattern.length).foldl (fun cursor _ =>
        cursor.bind fun cursor => (input[cursor]?).map fun byte => cursor + unicodeCharLength byte)
        (some cursor)
      match skipped with
      | none => (false, -1)
      | some cursor => matchForwardUnicode input fixedPattern subPatterns cursor
    else if cursor + subPattern.length > input.length ∨
        ByteString.memcmp (substr input cursor subPattern.length)
          (substr fixedPattern subPattern.start subPattern.length) ≠ 0 then (false, -1)
    else matchForwardUnicode input fixedPattern subPatterns (cursor + subPattern.length)

def matchRelaxedFixedForwardUnicode (input : List UInt8) (patternMetadata : PatternMetadata)
    (start : Nat) : Bool × Int :=
  if input.length - start < patternMetadata.length then (false, -1)
  else matchForwardUnicode input patternMetadata.fixedPattern patternMetadata.subPatterns start

/-- The byte at a `size_t` offset into the input; `none` outside it, where the source reads
    memory that is not the input's. -/
def byteAt (input : List UInt8) (cursor : UInt64) : Option UInt8 := input[cursor.toNat]?

/-- The wildcard loop of `matchRelaxedFixedBackwardUnicode`: it steps the cursor back a byte at
    a time and counts the first bytes it passes. The count falls at every first byte read, so
    `charsToSkip` rounds per first byte suffice and `fuel` bounds the bytes read. -/
def skipBackward (input : List UInt8) : Nat → Nat → UInt64 → Option UInt64
  | 0, _, cursor => some cursor
  | _, 0, cursor => some cursor
  | fuel + 1, charsToSkip + 1, cursor => do
    let byte ← byteAt input cursor
    if isFirstByte byte then skipBackward input fuel charsToSkip (cursor - 1)
    else skipBackward input fuel (charsToSkip + 1) (cursor - 1)

def matchBackwardUnicode (input fixedPattern : List UInt8) :
    List SubPatternMetadata → UInt64 → Option Bool
  | [], _ => some true
  | subPattern :: subPatterns, cursor =>
    if subPattern.kind = .kSingleCharWildcard then do
      -- a cursor that leaves the input reads outside it at the next byte; `input.length + 1`
      -- steps reach that byte
      let cursor ← skipBackward input (input.length + 1) subPattern.length cursor
      matchBackwardUnicode input fixedPattern subPatterns cursor
    else do
      let startIdx := cursor - (subPattern.length.toUInt64 - 1)
      let compared ← (List.range subPattern.length).mapM
        fun i => byteAt input (startIdx + i.toUInt64)
      if ByteString.memcmp compared (substr fixedPattern subPattern.start subPattern.length) ≠ 0
      then some false
      else matchBackwardUnicode input fixedPattern subPatterns (cursor - subPattern.length.toUInt64)

def matchRelaxedFixedBackwardUnicode (input : List UInt8) (patternMetadata : PatternMetadata)
    (start : UInt64) : Option Bool :=
  if (start + 1).toNat < patternMetadata.length then some false
  else matchBackwardUnicode input patternMetadata.fixedPattern
    patternMetadata.subPatterns.reverse start

def matchPrefixPattern (input pattern : List UInt8) (length : Nat) : Bool :=
  input.length ≥ length && ByteString.memcmp (input.take length) (pattern.take length) = 0

def matchSuffixPattern (input pattern : List UInt8) (length : Nat) : Bool :=
  input.length ≥ length &&
    ByteString.memcmp (input.drop (input.length - length)) (pattern.drop (pattern.length - length))
      = 0

def find (input pattern : List UInt8) : Option Nat :=
  (List.range (input.length + 1)).find? fun position => pattern.isPrefixOf (input.drop position)

def matchSubstringPattern (input fixedPattern : List UInt8) : Bool :=
  (find input fixedPattern).isSome

def matchSubstringsPattern (input : List UInt8) : List (List UInt8) → Bool
  | [] => true
  | pattern :: patterns =>
    match find input pattern with
    | none => false
    | some position => matchSubstringsPattern (input.drop (position + pattern.length)) patterns

def cappedLengthUnicode : Nat → List UInt8 → Nat → Nat
  | 0, _, _ => 0
  | fuel + 1, input, maxChars =>
    match input with
    | [] => 0
    | byte :: rest =>
      if maxChars = 0 then 0
      else 1 + cappedLengthUnicode fuel (rest.drop (unicodeCharLength byte - 1)) (maxChars - 1)

def cappedLength (isAscii : Bool) (input : List UInt8) (maxLength : Nat) : Nat :=
  if isAscii then min input.length maxLength
  else cappedLengthUnicode input.length input maxLength

def OptimizedLike.match (isAscii : Bool) (input : List UInt8)
    (patternMetadata : PatternMetadata) : Option Bool :=
  let length := patternMetadata.length
  let fixedPattern := patternMetadata.fixedPattern
  match patternMetadata.patternKind with
  | .kExactlyN =>
    if isAscii then some (input.length == length)
    else some (cappedLength false input (length + 1) == length)
  | .kAtLeastN =>
    if isAscii then some (decide (input.length ≥ length))
    else some (decide (cappedLength false input (length + 1) ≥ length))
  | .kFixed => matchExactPattern input fixedPattern length
  | .kRelaxedFixed =>
    let (matched, cursor) := if isAscii
      then matchRelaxedFixedForwardAscii input patternMetadata 0
      else matchRelaxedFixedForwardUnicode input patternMetadata 0
    matched && cursor = input.length
  | .kPrefix => matchPrefixPattern input fixedPattern length
  | .kRelaxedPrefix =>
    if isAscii then (matchRelaxedFixedForwardAscii input patternMetadata 0).1
    else (matchRelaxedFixedForwardUnicode input patternMetadata 0).1
  | .kSuffix => matchSuffixPattern input fixedPattern length
  | .kRelaxedSuffix =>
    if isAscii then
      if input.length < length then false
      else (matchRelaxedFixedForwardAscii input patternMetadata (input.length - length)).1
    else matchRelaxedFixedBackwardUnicode input patternMetadata (input.length.toUInt64 - 1)
  | .kSubstring => matchSubstringPattern input fixedPattern
  | .kSubstrings => matchSubstringsPattern input patternMetadata.substrings
  | .kGeneric => none

def isUtf8SensitivePattern : PatternKind → Bool
  | .kExactlyN | .kAtLeastN | .kRelaxedFixed | .kRelaxedPrefix | .kRelaxedSuffix => true
  | _ => false

/-- `OptimizedLike<P>::apply` over the strings of a batch: the character matchers are used when
    the pattern kind needs them and some string of the batch is not ASCII. -/
def OptimizedLike.apply (patternMetadata : PatternMetadata) (rows : List (List UInt8)) :
    List (Option Bool) :=
  let needsUtf8Processing := isUtf8SensitivePattern patternMetadata.patternKind &&
    !rows.all (·.all (· < 128))
  rows.map fun input => OptimizedLike.match (!needsUtf8Processing) input patternMetadata

inductive LikeFunction where
  | optimized (patternMetadata : PatternMetadata)
  | withRe2 (pattern : List UInt8) (escapeChar : Option UInt8)
  | alwaysFailing (error : String)
  deriving DecidableEq, Repr

def makeLike (pattern : List UInt8) (escape : Option (List UInt8)) : LikeFunction :=
  match escape with
  | some escape =>
    match escape with
    | [escapeChar] => choose (some escapeChar)
    | _ => .alwaysFailing "Escape string must be a single character"
  | none =>
    let substrings := PatternMetadata.parseSubstrings pattern
    if substrings.length > 0 then .optimized (.ofSubstrings substrings)
    else choose none
where
  choose (escapeChar : Option UInt8) : LikeFunction :=
    match determinePatternKind pattern escapeChar with
    | .error error => .alwaysFailing error
    | .ok patternMetadata =>
      if patternMetadata.patternKind = .kGeneric then .withRe2 pattern escapeChar
      else .optimized patternMetadata

end Velox.Functions.Like
