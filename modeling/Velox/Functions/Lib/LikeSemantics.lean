import Mathlib

-- SQL LIKE over UTF-8 byte strings: `%` matches any sequence of characters, `_` exactly one
-- character, and an escape byte makes the `%`, `_` or escape byte after it a literal. This is the
-- meaning the optimized matchers of `velox/functions/lib/Re2Functions.cpp` are compared with.

namespace Velox.Functions.Like

def isFirstByte (byte : UInt8) : Bool := byte ≤ 127 || byte ≥ 192

def isContinuation (byte : UInt8) : Bool := 0x80 ≤ byte && byte ≤ 0xBF

namespace Utf8

/-- The bytes split into characters, each starting at a first byte; the continuation bytes
    before the first character are returned apart. -/
def split (bytes : List UInt8) : List UInt8 × List (List UInt8) :=
  bytes.foldr (fun byte (pending, chars) =>
    if isFirstByte byte then ([], (byte :: pending) :: chars) else (byte :: pending, chars))
    ([], [])

def chars (bytes : List UInt8) : List (List UInt8) := (split bytes).2

def validChar : List UInt8 → Bool
  | [b0] => b0 ≤ 0x7F
  | [b0, b1] => 0xC2 ≤ b0 && b0 ≤ 0xDF && isContinuation b1
  | [b0, b1, b2] =>
    (b0 == 0xE0 && 0xA0 ≤ b1 && b1 ≤ 0xBF || 0xE1 ≤ b0 && b0 ≤ 0xEC && isContinuation b1 ||
      b0 == 0xED && 0x80 ≤ b1 && b1 ≤ 0x9F || 0xEE ≤ b0 && b0 ≤ 0xEF && isContinuation b1) &&
    isContinuation b2
  | [b0, b1, b2, b3] =>
    (b0 == 0xF0 && 0x90 ≤ b1 && b1 ≤ 0xBF || 0xF1 ≤ b0 && b0 ≤ 0xF3 && isContinuation b1 ||
      b0 == 0xF4 && 0x80 ≤ b1 && b1 ≤ 0x8F) && isContinuation b2 && isContinuation b3
  | _ => false

def valid (bytes : List UInt8) : Bool :=
  (split bytes).1.isEmpty && (chars bytes).all validChar

end Utf8

inductive LikeToken where
  | literal (char : List UInt8)
  | single
  | any
  deriving DecidableEq, Repr

/-- The tokens of a pattern read character by character; `none` for an escape byte that is not
    followed by `%`, `_` or itself. -/
def likeTokens (escapeChar : Option UInt8) : List (List UInt8) → Option (List LikeToken)
  | [] => some []
  | char :: rest =>
    if escapeChar.map (fun escape => [escape]) = some char then
      match rest with
      | next :: rest =>
        if next = [37] ∨ next = [95] ∨ some next = escapeChar.map (fun escape => [escape]) then
          (likeTokens escapeChar rest).map (.literal next :: ·)
        else none
      | [] => none
    else if char = [37] then (likeTokens escapeChar rest).map (.any :: ·)
    else if char = [95] then (likeTokens escapeChar rest).map (.single :: ·)
    else (likeTokens escapeChar rest).map (.literal char :: ·)

def likeMatches : List LikeToken → List (List UInt8) → Bool
  | [], chars => chars.isEmpty
  | .any :: pattern, chars => chars.tails.any (likeMatches pattern)
  | .single :: pattern, chars =>
    match chars with
    | [] => false
    | _ :: chars => likeMatches pattern chars
  | .literal char :: pattern, chars =>
    match chars with
    | [] => false
    | other :: chars => char == other && likeMatches pattern chars

/-- SQL LIKE of a string and a pattern with an optional escape byte; `none` for a pattern that
    is not well formed. -/
def like (input pattern : List UInt8) (escapeChar : Option UInt8) : Option Bool :=
  (likeTokens escapeChar (Utf8.chars pattern)).map fun tokens =>
    likeMatches tokens (Utf8.chars input)

end Velox.Functions.Like
