import Velox.Functions.Lib.Like

-- The backward matcher of relaxed suffixes: how its wildcard loop walks the unsigned cursor, and
-- a string it reads before (`matchRelaxedFixedBackwardUnicode` of
-- `velox/functions/lib/Re2Functions.cpp`).
namespace Velox.Functions.Like

theorem byteAt_of_lt {input : List UInt8} {cursor : UInt64} (within : cursor.toNat < input.length) :
    byteAt input cursor = some input[cursor.toNat] := by
  simp [byteAt, within]

theorem byteAt_of_le {input : List UInt8} {cursor : UInt64}
    (outside : input.length ≤ cursor.toNat) :
    byteAt input cursor = none := by
  simp [byteAt, outside]

theorem mapM_byteAt {input : List UInt8} {start : UInt64} {length : Nat}
    (within : start.toNat + length ≤ input.length) (sized : input.length < 2 ^ 64) :
    (List.range length).mapM (fun i => byteAt input (start + i.toUInt64)) =
      some ((input.drop start.toNat).take length) := by
  induction length with
  | zero => simp
  | succ length rest =>
    have index : (start + length.toUInt64).toNat = start.toNat + length := by
      simp only [UInt64.toNat_add, Nat.toUInt64_eq, UInt64.toNat_ofNat']
      omega
    have read : byteAt input (start + length.toUInt64) = some input[start.toNat + length] := by
      rw [byteAt, index, List.getElem?_eq_getElem]
    rw [List.range_succ, List.mapM_append, rest (by omega), List.mapM_cons, List.mapM_nil, read]
    have inside : start.toNat + length < input.length := by omega
    simp [List.take_add_one, List.getElem?_drop, List.getElem?_eq_getElem inside]

theorem skipBackward_of_outside {input : List UInt8} {cursor : UInt64} {fuel charsToSkip : Nat}
    (outside : input.length ≤ cursor.toNat) (running : 0 < fuel) (skipping : 0 < charsToSkip) :
    skipBackward input fuel charsToSkip cursor = none := by
  obtain ⟨fuel, rfl⟩ : ∃ rest, fuel = rest + 1 := ⟨fuel - 1, by omega⟩
  obtain ⟨charsToSkip, rfl⟩ : ∃ rest, charsToSkip = rest + 1 := ⟨charsToSkip - 1, by omega⟩
  simp [skipBackward, byteAt_of_le outside]

theorem skipBackward_step {input : List UInt8} {cursor : UInt64} {fuel charsToSkip : Nat}
    (within : cursor.toNat < input.length) :
    skipBackward input (fuel + 1) (charsToSkip + 1) cursor =
      skipBackward input fuel
        (if isFirstByte input[cursor.toNat] then charsToSkip else charsToSkip + 1)
        (cursor - 1) := by
  simp only [skipBackward, byteAt_of_lt within, Option.bind_eq_bind, Option.bind_some]
  split <;> rfl

theorem count_firstBytes_take_succ {input : List UInt8} {n : Nat} (within : n < input.length) :
    ((input.take (n + 1)).filter isFirstByte).length =
      ((input.take n).filter isFirstByte).length + if isFirstByte input[n] then 1 else 0 := by
  rw [List.take_add_one, List.getElem?_eq_getElem within, List.filter_append, List.length_append]
  split <;> simp [*]

theorem skipBackward_round {input : List UInt8} {cursor : UInt64} {fuel charsToSkip : Nat}
    (within : cursor.toNat < input.length) (running : 0 < fuel)
    (fewer : ((input.take (cursor.toNat + 1)).filter isFirstByte).length < charsToSkip) :
    ∃ remaining, ((input.take cursor.toNat).filter isFirstByte).length < remaining ∧
      skipBackward input fuel charsToSkip cursor =
        skipBackward input (fuel - 1) remaining (cursor - 1) := by
  obtain ⟨fuel, rfl⟩ : ∃ rest, fuel = rest + 1 := ⟨fuel - 1, by omega⟩
  obtain ⟨charsToSkip, rfl⟩ : ∃ rest, charsToSkip = rest + 1 := ⟨charsToSkip - 1, by omega⟩
  rw [count_firstBytes_take_succ within] at fewer
  refine ⟨_, ?_, skipBackward_step within⟩
  by_cases first : isFirstByte input[cursor.toNat]
  · simp only [first, if_true] at fewer ⊢
    omega
  · simp only [first, Bool.false_eq_true, if_false] at fewer ⊢
    omega

theorem skipBackward_passes_start {input : List UInt8} (sized : input.length < 2 ^ 64)
    (position : Nat) :
    ∀ {cursor : UInt64} {fuel charsToSkip : Nat}, cursor.toNat = position →
      position < input.length → position + 1 < fuel →
      ((input.take (position + 1)).filter isFirstByte).length < charsToSkip →
      skipBackward input fuel charsToSkip cursor = none := by
  -- induction on the position of the cursor, which each round lowers by one
  induction position with
  | zero =>
    intro cursor fuel charsToSkip at_position within running fewer
    obtain ⟨remaining, left, round⟩ :=
      skipBackward_round (at_position ▸ within) (show 0 < fuel by omega) (at_position ▸ fewer)
    -- the cursor wraps around to the last `size_t`, past the end of the input
    have wrapped : input.length ≤ (cursor - 1).toNat := by
      have zero : cursor = 0 := UInt64.toNat_inj.mp (by simpa using at_position)
      have last : (0 - 1 : UInt64).toNat = 2 ^ 64 - 1 := rfl
      rw [zero, last]
      omega
    rw [round]
    exact skipBackward_of_outside wrapped (by omega) (by simp_all)
  | succ position previous =>
    intro cursor fuel charsToSkip at_position within running fewer
    obtain ⟨remaining, left, round⟩ :=
      skipBackward_round (at_position ▸ within) (show 0 < fuel by omega) (at_position ▸ fewer)
    have stepped : (cursor - 1).toNat = position := by
      rw [UInt64.toNat_sub_of_le _ _ (by simp [UInt64.le_iff_toNat_le, at_position])]
      simp [at_position]
    rw [round]
    exact previous stepped (by omega) (by omega) (by simpa [at_position] using left)

theorem matchBackwardUnicode_single {input fixedPattern : List UInt8} {start length : Nat}
    {subPatterns : List SubPatternMetadata} {cursor : UInt64} :
    matchBackwardUnicode input fixedPattern
        (⟨.kSingleCharWildcard, start, length⟩ :: subPatterns) cursor =
      (skipBackward input (input.length + 1) length cursor).bind
        (matchBackwardUnicode input fixedPattern subPatterns) := by
  simp [matchBackwardUnicode, Option.bind_eq_bind]

theorem matchBackwardUnicode_literal {input fixedPattern : List UInt8} {start length : Nat}
    {subPatterns : List SubPatternMetadata} {cursor : UInt64} (sized : input.length < 2 ^ 64)
    (nonempty : 0 < length) (within : cursor.toNat < input.length)
    (fits : length ≤ cursor.toNat + 1)
    (same : (input.drop (cursor.toNat + 1 - length)).take length =
      substr fixedPattern start length) :
    matchBackwardUnicode input fixedPattern (⟨.kLiteralString, start, length⟩ :: subPatterns)
        cursor =
      matchBackwardUnicode input fixedPattern subPatterns (cursor - length.toUInt64) := by
  have bytes : length.toUInt64.toNat = length := by
    simp only [Nat.toUInt64_eq, UInt64.toNat_ofNat']
    omega
  have width : (length.toUInt64 - 1).toNat = length - 1 := by
    rw [UInt64.toNat_sub_of_le _ _ (by simp [UInt64.le_iff_toNat_le, bytes]; omega), bytes]
    rfl
  have first : (cursor - (length.toUInt64 - 1)).toNat = cursor.toNat + 1 - length := by
    rw [UInt64.toNat_sub_of_le _ _ (by simp [UInt64.le_iff_toNat_le, width]; omega), width]
    omega
  have read := @mapM_byteAt input (cursor - (length.toUInt64 - 1)) length (by omega) sized
  rw [first, same] at read
  simp [matchBackwardUnicode, read]

theorem matchRelaxedFixedBackwardUnicode_passes_start {pre literal : List UInt8} {n : Nat}
    (hasLiteral : literal ≠ []) (fits : n ≤ pre.length)
    (fewer : (pre.filter isFirstByte).length < n) (sized : (pre ++ literal).length < 2 ^ 64) :
    matchRelaxedFixedBackwardUnicode (pre ++ literal)
        (.relaxedSuffix (List.replicate n 95 ++ literal)
          [⟨.kSingleCharWildcard, 0, n⟩, ⟨.kLiteralString, n, literal.length⟩])
        ((pre ++ literal).length.toUInt64 - 1) = none := by
  have nonempty : 0 < literal.length := List.length_pos_iff.mpr hasLiteral
  have total : (pre ++ literal).length = pre.length + literal.length := List.length_append
  have length : (pre ++ literal).length.toUInt64.toNat = pre.length + literal.length := by
    simp only [Nat.toUInt64_eq, UInt64.toNat_ofNat']
    omega
  -- the cursor starts at the last byte of the string
  have last : ((pre ++ literal).length.toUInt64 - 1).toNat = pre.length + literal.length - 1 := by
    rw [UInt64.toNat_sub_of_le _ _ (by simp [UInt64.le_iff_toNat_le]; omega), length]
    rfl
  have checked : ¬((pre ++ literal).length.toUInt64 - 1 + 1).toNat <
      (List.replicate n 95 ++ literal).length := by
    simp
    omega
  -- the literal matches the end of the string
  have same : ((pre ++ literal).drop (pre.length + literal.length - 1 + 1 - literal.length)).take
      literal.length = substr (List.replicate n 95 ++ literal) n literal.length := by
    have start : pre.length + literal.length - 1 + 1 - literal.length = pre.length := by omega
    simp [start, substr, List.drop_left' (List.length_replicate (n := n) (a := (95 : UInt8)))]
  have stepped : ((pre ++ literal).length.toUInt64 - 1 - literal.length.toUInt64).toNat =
      pre.length - 1 := by
    have bytes : literal.length.toUInt64.toNat = literal.length := by
      simp only [Nat.toUInt64_eq, UInt64.toNat_ofNat']
      omega
    rw [UInt64.toNat_sub_of_le _ _ (by rw [UInt64.le_iff_toNat_le, last, bytes]; omega), last,
      bytes]
    omega
  simp only [matchRelaxedFixedBackwardUnicode, PatternMetadata.relaxedSuffix, checked,
    if_false, List.reverse_cons, List.reverse_nil, List.nil_append, List.cons_append]
  rw [matchBackwardUnicode_literal sized nonempty (by omega) (by omega) (last ▸ same),
    matchBackwardUnicode_single,
    skipBackward_passes_start sized (pre.length - 1) stepped (by omega) (by omega)
      (by simpa [Nat.sub_add_cancel (by omega : 1 ≤ pre.length)] using fewer)]
  rfl

theorem le_of_not_isFirstByte {byte : UInt8} (continuation : isFirstByte byte = false) :
    128 ≤ byte := by
  simp only [isFirstByte, Bool.or_eq_false_iff, decide_eq_false_iff_not,
    UInt8.le_iff_toNat_le] at continuation ⊢
  simp only [UInt8.reduceToNat] at continuation ⊢
  omega

theorem apply_of_not_ascii {patternMetadata : PatternMetadata} {rows : List (List UInt8)}
    (sensitive : isUtf8SensitivePattern patternMetadata.patternKind)
    (nonAscii : ∃ input ∈ rows, ∃ byte ∈ input, 128 ≤ byte) :
    OptimizedLike.apply patternMetadata rows =
      rows.map fun input => OptimizedLike.match false input patternMetadata := by
  obtain ⟨input, member, byte, inInput, high⟩ := nonAscii
  have notAll : rows.all (·.all (· < 128)) = false := by
    simp only [List.all_eq_false]
    exact ⟨input, member, by simpa using ⟨byte, inInput, high⟩⟩
  simp [OptimizedLike.apply, sensitive, notAll]

theorem match_relaxedSuffix_unicode {input : List UInt8} {patternMetadata : PatternMetadata}
    (kind : patternMetadata.patternKind = .kRelaxedSuffix) :
    OptimizedLike.match false input patternMetadata =
      matchRelaxedFixedBackwardUnicode input patternMetadata (input.length.toUInt64 - 1) := by
  simp [OptimizedLike.match, kind]

theorem relaxed_suffix_reads_before_input (pre literal : List UInt8) (n : Nat)
    (rows : List (List UInt8)) (index : Nat) (row : rows[index]? = some (pre ++ literal))
    (hasLiteral : literal ≠ []) (fits : n ≤ pre.length)
    (fewer : (pre.filter isFirstByte).length < n) (sized : (pre ++ literal).length < 2 ^ 64) :
    (OptimizedLike.apply (.relaxedSuffix (List.replicate n 95 ++ literal)
        [⟨.kSingleCharWildcard, 0, n⟩, ⟨.kLiteralString, n, literal.length⟩]) rows)[index]?
      = some none := by
  -- fewer first bytes than bytes before the literal: one of them is past ASCII
  obtain ⟨byte, inPre, continuation⟩ :=
    List.length_filter_lt_length_iff_exists.mp
      (show (pre.filter isFirstByte).length < pre.length by omega)
  have nonAscii : ∃ input ∈ rows, ∃ byte ∈ input, 128 ≤ byte :=
    ⟨pre ++ literal, List.mem_of_getElem? row, byte, List.mem_append_left _ inPre,
      le_of_not_isFirstByte (by simpa using continuation)⟩
  rw [apply_of_not_ascii rfl nonAscii, List.getElem?_map, row, Option.map_some,
    match_relaxedSuffix_unicode rfl,
    matchRelaxedFixedBackwardUnicode_passes_start hasLiteral fits fewer sized]

theorem relaxed_suffix_reads_before_e_acute :
    makeLike [37, 95, 95, 97] none = .optimized (.relaxedSuffix [95, 95, 97]
      [⟨.kSingleCharWildcard, 0, 2⟩, ⟨.kLiteralString, 2, 1⟩]) ∧
    Utf8.valid [0xC3, 0xA9, 0x61] ∧ like [0xC3, 0xA9, 0x61] [37, 95, 95, 97] none = some false ∧
    (OptimizedLike.apply (.relaxedSuffix [95, 95, 97]
      [⟨.kSingleCharWildcard, 0, 2⟩, ⟨.kLiteralString, 2, 1⟩]) [[0xC3, 0xA9, 0x61]])[0]? =
      some none :=
  ⟨by decide, by decide, by decide,
    relaxed_suffix_reads_before_input [0xC3, 0xA9] [0x61] 2 [[0xC3, 0xA9, 0x61]] 0 rfl
      (by decide) (by decide) (by decide) (by decide)⟩

end Velox.Functions.Like
